import MatrixMedia.Streams.Sweep

/-!
# Which streams the sweep ends

A run is any sequence of ticks, changes of the table by others and process restarts. The
invariant ties each clock to the log (`NotLiveSince`): some tick started it, and since then
no tick had the liveness rule off and none that judged the stream found it live. The loop
of a tick keeps the invariant stream by stream, with the tick's own log as the newest
entry. `sweep_ends_rightly` is what follows for the endings of any next tick, together with
exactly which streams a tick without failures ends.
-/

namespace MatrixMedia.Streams

open Lib Lib.Chrono Lib.Interaction Sweep Table

open Std (TreeMap)
open List (mem_cons mem_cons_of_mem mem_cons_self mem_map mem_singleton nodup_cons)

variable {ctx : EndContext} {policy : SweepPolicy} {io : TickIo} {id : String} {since : Nat} {ticks : List TickLog}
  {w : Sweep}

structure World where
  emptySince : TreeMap String Nat
  streams : StreamTable
  /-- Newest first. -/
  ticks : List TickLog

inductive SweepStep where
  | tick (policy : SweepPolicy) (io : TickIo)
  /-- Streams start, end and change between two ticks. -/
  | change (streams : StreamTable)
  /-- A new process has no clocks. -/
  | restart

def sweepStep (ctx : EndContext) (world : World) : SweepStep → World
  | .tick policy io =>
    let w := runOnce ctx world.emptySince world.streams io policy
    ⟨w.emptySince, w.streams, w.log :: world.ticks⟩
  | .change streams => { world with streams := streams }
  | .restart => { world with emptySince := ∅ }

def World.start (streams : StreamTable) : World := ⟨∅, streams, []⟩

/-! ## Clocks -/

/-- The rule was on, and the stream was not found live. -/
def TickLog.NeverLive (id : String) (t : TickLog) : Prop :=
  t.policy.grace ≠ none ∧ ∀ j ∈ t.judged, j.id = id → j.occupied = false

/-- Some tick judged the stream at `since`, and neither it nor a later one found it live or
had the rule off. -/
def NotLiveSince (ticks : List TickLog) (id : String) (since : Nat) : Prop :=
  ∃ newer tick older, ticks = newer ++ tick :: older ∧ (∃ j ∈ tick.judged, j.id = id ∧ j.judgedAt = since) ∧
    ∀ t ∈ newer ++ [tick], t.NeverLive id

theorem NotLiveSince.cons {t : TickLog} (ht : t.NeverLive id) (h : NotLiveSince ticks id since) :
    NotLiveSince (t :: ticks) id since := by
  obtain ⟨newer, tick, older, rfl, hstart, hall⟩ := h
  refine ⟨t :: newer, tick, older, rfl, hstart, ?_⟩
  intro t' ht'
  rcases mem_cons.mp ht' with rfl | ht'
  · exact ht
  · exact hall t' ht'

/-- The newest tick goes on, and does not find the stream live. -/
theorem NotLiveSince.newest {t t' : TickLog} (h : NotLiveSince (t :: ticks) id since) (hjudged : t.judged ⊆ t'.judged)
    (hnever : t.NeverLive id → t'.NeverLive id) : NotLiveSince (t' :: ticks) id since := by
  obtain ⟨newer, tick, older, heq, ⟨j, hj, hid, hat⟩, hall⟩ := h
  cases newer with
  | nil =>
    obtain ⟨rfl, rfl⟩ := List.cons.inj heq
    refine ⟨[], t', ticks, rfl, ⟨j, hjudged hj, hid, hat⟩, ?_⟩
    intro t₁ ht₁
    rw [mem_singleton.mp ht₁]
    exact hnever (hall t (mem_singleton.mpr rfl))
  | cons newest newer =>
    obtain ⟨rfl, rfl⟩ := List.cons.inj heq
    refine ⟨t' :: newer, tick, older, rfl, ⟨j, hj, hid, hat⟩, ?_⟩
    intro t₁ ht₁
    rcases mem_cons.mp ht₁ with rfl | ht₁
    · exact hnever (hall t mem_cons_self)
    · exact hall t₁ (mem_cons_of_mem t ht₁)

/-- It judges another stream, or this one as not live. -/
theorem NotLiveSince.judged {t : TickLog} {j : Judgement} (hj : j.id = id → j.occupied = false)
    (h : NotLiveSince (t :: ticks) id since) : NotLiveSince ({ t with judged := j :: t.judged } :: ticks) id since := by
  apply h.newest (List.subset_cons_self j t.judged)
  intro hnever
  refine ⟨hnever.1, fun j' hj' => ?_⟩
  rcases mem_cons.mp hj' with rfl | hj'
  · exact hj
  · exact hnever.2 j' hj'

/-! ## What one stream's turn does -/

/-- An end changes the clock of its stream only, and drops it or leaves it. -/
theorem autoEndStream_clock (s : Stream) (end' : EndIo) (cause : Cause) {other : String} {t : Nat}
    (h : (w.autoEndStream ctx id s end' cause).emptySince[other]? = some t) : w.emptySince[other]? = some t := by
  unfold autoEndStream at h
  dsimp only at h
  split at h
  · exact h
  · rw [getElem?_erase] at h
    split at h
    · cases h
    · exact h

/-- The log of an end: as it was, or with the stream's ending. -/
theorem autoEndStream_log (ctx : EndContext) (w : Sweep) (id : String) (s : Stream) (end' : EndIo) (cause : Cause) :
    let log := (w.autoEndStream ctx id s end' cause).log
    log.policy = w.log.policy ∧ log.judged = w.log.judged ∧ w.log.ended ⊆ log.ended ∧ ∀ e ∈ log.ended, e = ⟨id, cause⟩ ∨ e ∈ w.log.ended := by
  unfold autoEndStream
  dsimp only
  split <;> (dsimp only; split <;> simp +contextual)

theorem endStreamIfActive_row (streams : StreamTable) (id other : String) :
    (endStreamIfActive streams id).1[other]? = streams[other]? ∨ other = id ∧ (endStreamIfActive streams id).2 = true := by
  unfold endStreamIfActive
  split
  · split
    · by_cases heq : other = id
      · exact .inr ⟨heq, rfl⟩
      · exact .inl (by rw [getElem?_insert, if_neg (Ne.symm heq)])
    · exact .inl rfl
  · exact .inl rfl

/-- The end path changes its own row only, and when no one else ends the stream a change is
its own transition. -/
theorem endAndFinaliseStream_row (streams : StreamTable) (id : String) (s : Stream) (release : RecordingRelease) (end' : EndIo)
    (other : String) : (ctx.endAndFinaliseStream streams id s release end').2.1[other]? = streams[other]? ∨
      other = id ∧ (end'.meanwhile = true ∨
        EndCall.endStream true ∈ (ctx.endAndFinaliseStream streams id s release end').2.2) := by
  by_cases hother : other = id
  · by_cases hmeanwhile : end'.meanwhile = true
    · exact .inr ⟨hother, .inl hmeanwhile⟩
    · by_cases happlied : end'.transition.applied = true
      · rcases endStreamIfActive_row streams id other with hsame | ⟨-, hmoved⟩
        · left
          unfold EndContext.endAndFinaliseStream
          dsimp only
          rw [if_neg hmeanwhile, if_pos happlied]
          repeat' split
          all_goals exact hsame
        · right
          refine ⟨hother, .inr ?_⟩
          unfold EndContext.endAndFinaliseStream
          dsimp only
          rw [if_neg hmeanwhile, happlied, hmoved]
          repeat' split
          all_goals simp
      · left
        unfold EndContext.endAndFinaliseStream
        dsimp only
        rw [if_neg hmeanwhile, if_neg happlied]
        repeat' split
        all_goals rfl
  · left
    have hsame := fun streams => (endStreamIfActive_row streams id other).resolve_right fun h => hother h.1
    unfold EndContext.endAndFinaliseStream
    dsimp only
    repeat' split
    all_goals simp only [hsame]

/-- An end changes its own row only, and when no one else ends the stream a change is logged. -/
theorem autoEndStream_row (ctx : EndContext) (w : Sweep) (id : String) (s : Stream) (end' : EndIo) (cause : Cause) (other : String) :
    (w.autoEndStream ctx id s end' cause).streams[other]? = w.streams[other]? ∨
      other = id ∧ (end'.meanwhile = true ∨
        (w.autoEndStream ctx id s end' cause).log = { w.log with ended := ⟨id, cause⟩ :: w.log.ended }) := by
  have hstreams : (w.autoEndStream ctx id s end' cause).streams =
      (ctx.endAndFinaliseStream w.streams id s .publish end').2.1 := by
    unfold autoEndStream
    dsimp only
    split <;> rfl
  rw [hstreams]
  rcases endAndFinaliseStream_row w.streams id s .publish end' other with hsame | ⟨hother, hmeanwhile | hmoved⟩
  · exact .inl hsame
  · exact .inr ⟨hother, .inl hmeanwhile⟩
  · refine .inr ⟨hother, .inr ?_⟩
    unfold autoEndStream
    dsimp only
    rw [if_pos hmoved]
    split <;> rfl

/-- An ending of a tick over `streams`: by the liveness rule when the clock is at least the
grace old, by the duration rule when the stream is at least as old as the cap. -/
def EndedRightly (policy : SweepPolicy) (io : TickIo) (streams : StreamTable) (ticks : List TickLog) (e : Ending) : Prop :=
  match e.cause with
  | .liveness since checkedAt => checkedAt = (io.stream e.id).checkedAt ∧
      (∃ grace, policy.grace = some grace ∧ grace ≤ checkedAt - since) ∧ NotLiveSince ticks e.id since
  | .duration age => ∃ cap s, policy.maxBroadcast = some cap ∧ streams[e.id]? = some s ∧
      age = broadcastAge s (io.stream e.id).utcNow ∧ cap ≤ age

theorem EndedRightly.newest {streams} {t t' : TickLog} {e : Ending}
    (h : EndedRightly policy io streams (t :: ticks) e) (hjudged : t.judged ⊆ t'.judged)
    (hnever : t.NeverLive e.id → t'.NeverLive e.id) : EndedRightly policy io streams (t' :: ticks) e := by
  obtain ⟨id, cause⟩ := e
  cases cause with
  | liveness since checkedAt => exact ⟨h.1, h.2.1, h.2.2.newest hjudged hnever⟩
  | duration age => exact h

/-- Between two streams of a tick: the clocks and the endings so far are accounted for, and
the streams in `rest` have not had their turn. -/
structure Sweeping (policy : SweepPolicy) (io : TickIo) (streams : StreamTable) (ticks : List TickLog) (rest : List String)
    (w : Sweep) : Prop where
  same : w.log.policy = policy
  clocks : ∀ id since, w.emptySince[id]? = some since → NotLiveSince (w.log :: ticks) id since
  judged : ∀ j ∈ w.log.judged, j.id ∉ rest
  ended : ∀ e ∈ w.log.ended, e.id ∉ rest ∧ EndedRightly policy io streams (w.log :: ticks) e
  moved : ∀ id, w.streams[id]? = streams[id]? ∨ (io.stream id).ending.meanwhile = true ∨ ∃ e ∈ w.log.ended, e.id = id

section

variable {streams : StreamTable} {rest : List String}

/-- An end that its rule allows. -/
theorem Sweeping.autoEnd (h : Sweeping policy io streams ticks rest w) (s : Stream) {cause : Cause}
    (hid : id ∉ rest) (hright : EndedRightly policy io streams (w.log :: ticks) ⟨id, cause⟩) :
    Sweeping policy io streams ticks rest (w.autoEndStream ctx id s (io.stream id).ending cause) := by
  obtain ⟨hpolicy, hjudged, hmore, hended⟩ := autoEndStream_log ctx w id s (io.stream id).ending cause
  have hsub : w.log.judged ⊆ _ := fun j hj => hjudged.symm ▸ hj
  have hnever : ∀ {other}, w.log.NeverLive other → (w.autoEndStream ctx id s (io.stream id).ending cause).log.NeverLive other := by
    intro other hnever
    unfold TickLog.NeverLive
    rw [hpolicy, hjudged]
    exact hnever
  refine ⟨hpolicy.trans h.same, fun other t hother => ?_, ?_, fun e he => ?_, fun other => ?_⟩
  · exact (h.clocks other t (autoEndStream_clock s (io.stream id).ending cause hother)).newest hsub hnever
  · rw [hjudged]
    exact h.judged
  · rcases hended e he with rfl | he
    · exact ⟨hid, hright.newest hsub hnever⟩
    · exact ⟨(h.ended e he).1, (h.ended e he).2.newest hsub hnever⟩
  · rcases autoEndStream_row ctx w id s (io.stream id).ending cause other with hrow | ⟨rfl, hmeanwhile | hlogged⟩
    · rw [hrow]
      exact (h.moved other).imp_right (Or.imp_right fun ⟨e, he, hid⟩ => ⟨e, hmore he, hid⟩)
    · exact .inr (.inl hmeanwhile)
    · exact .inr (.inr ⟨⟨other, cause⟩, by rw [hlogged]; exact mem_cons_self, rfl⟩)

section
variable (h : Sweeping policy io streams ticks (id :: rest) w)
include h

theorem Sweeping.pass : Sweeping policy io streams ticks rest w where
  same := h.same
  clocks := h.clocks
  judged j hj hmem := h.judged j hj (mem_cons_of_mem id hmem)
  ended e he := ⟨fun hmem => (h.ended e he).1 (mem_cons_of_mem id hmem), (h.ended e he).2⟩
  moved := h.moved

/-- The stream whose turn it is gets judged. A live one loses its clock, another one keeps
it or gets one from this judgement. -/
theorem Sweeping.judge (hid : id ∉ rest) (hon : policy.grace ≠ none)
    (judgedAt : Nat) (occupied : Bool) (clocks : TreeMap String Nat)
    (hother : ∀ other t, other ≠ id → clocks[other]? = some t → w.emptySince[other]? = some t)
    (hown : ∀ t, clocks[id]? = some t → occupied = false ∧ (w.emptySince[id]? = some t ∨ t = judgedAt)) :
    Sweeping policy io streams ticks rest
      { w with emptySince := clocks, log := { w.log with judged := ⟨id, judgedAt, occupied⟩ :: w.log.judged } } := by
  refine ⟨h.same, ?_, ?_, ?_, h.moved⟩
  · intro other t hclock
    by_cases heq : other = id
    · subst heq
      obtain ⟨hnot, hkept | rfl⟩ := hown t hclock
      · exact (h.clocks other t hkept).judged fun _ => hnot
      · refine ⟨[], _, ticks, rfl, ⟨_, mem_cons_self, rfl, rfl⟩, ?_⟩
        intro tick htick
        rw [List.nil_append, mem_singleton] at htick
        subst htick
        refine ⟨h.same ▸ hon, fun j hj hjid => ?_⟩
        rcases mem_cons.mp hj with rfl | hj
        · exact hnot
        · exact absurd (hjid ▸ mem_cons_self) (h.judged j hj)
    · exact (h.clocks other t (hother other t heq hclock)).judged fun hsame => absurd hsame.symm heq
  · intro j hj
    rcases mem_cons.mp hj with rfl | hj
    · exact hid
    · exact h.pass.judged j hj
  · intro e he
    have hne : id ≠ e.id := fun heq => (h.ended e he).1 (heq ▸ mem_cons_self)
    refine ⟨(h.pass.ended e he).1, (h.ended e he).2.newest (List.subset_cons_self _ _) fun hnever => ⟨hnever.1, ?_⟩⟩
    intro j hj hjid
    rcases mem_cons.mp hj with rfl | hj
    · exact absurd hjid hne
    · exact hnever.2 j hj hjid

/-- A stream's turn. -/
theorem Sweeping.visit {s} (hid : id ∉ rest)
    (hs : streams[id]? = some s) : Sweeping policy io streams ticks rest (w.visit ctx policy io (id, s)) := by
  unfold Sweep.visit
  dsimp only
  split
  · case isTrue hcap =>
    cases hmax : policy.maxBroadcast with
    | none => simp [hmax] at hcap
    | some cap =>
      rw [hmax, Option.any_some, decide_eq_true_eq] at hcap
      exact h.pass.autoEnd s hid ⟨cap, s, hmax, hs, rfl, hcap⟩
  · split
    · exact h.pass
    · rename_i grace hgrace
      have hon : policy.grace ≠ none := by simp [hgrace]
      unfold Sweep.judge
      dsimp only
      split
      · rename_i hoccupied
        refine h.judge hid hon _ _ _ ?_ ?_
        · intro other t hne hclock
          rwa [getElem?_erase, if_neg hne.symm] at hclock
        · intro t hclock
          simp at hclock
      · rename_i hnot
        rw [Bool.not_eq_true] at hnot
        have hjudged := h.judge hid hon (io.stream id).judgedAt
          (sweepConsidersOccupied (lookupRoom (io.stream id).listed s)
            (io.liveSources.map fun live => decide (switchSourceId id ∈ live)))
          (w.emptySince.insert id (w.emptySince[id]?.getD (io.stream id).judgedAt)) ?_ ?_
        · split
          · exact hjudged
          · refine hjudged.autoEnd s hid ⟨rfl, ⟨grace, hgrace, by omega⟩, ?_⟩
            exact hjudged.clocks id _ (by simp)
        · intro other t hne hclock
          rwa [getElem?_insert, if_neg hne.symm] at hclock
        · intro t hclock
          refine ⟨hnot, ?_⟩
          rw [getElem?_insert, if_pos rfl, Option.some.injEq] at hclock
          cases hold : w.emptySince[id]? with
          | none => exact .inr (by rw [← hclock, hold, Option.getD_none])
          | some since => exact .inl (by rw [← hclock, hold, Option.getD_some])

end

/-- The loop. -/
theorem Sweeping.visits {l : List (String × Stream)} (hdistinct : (l.map Prod.fst).Nodup)
    (hrows : ∀ x ∈ l, streams[x.1]? = some x.2) (h : Sweeping policy io streams ticks (l.map Prod.fst) w) :
    Sweeping policy io streams ticks [] (l.foldl (Sweep.visit ctx policy io) w) := by
  induction l generalizing w with
  | nil => exact h
  | cons x l ih =>
    obtain ⟨hid, hdistinct⟩ := nodup_cons.mp hdistinct
    exact ih hdistinct (fun y hy => hrows y (mem_cons_of_mem x hy)) (h.visit hid (hrows x mem_cons_self))

end

/-! ## What a tick does -/

section

variable {streams : StreamTable} {emptySince : TreeMap String Nat}

theorem mem_listAllActiveStreams {limit x} (h : x ∈ listAllActiveStreams streams limit) :
    streams[x.1]? = some x.2 ∧ x.2.status = .active := by
  have hmem := (List.perm_insertionSort _ _).mem_iff.mp (List.mem_of_mem_take h)
  rw [List.mem_filter, decide_eq_true_eq] at hmem
  exact ⟨mem_toList.mp hmem.1, hmem.2⟩

theorem nodup_listAllActiveStreams (streams : StreamTable) (limit : Nat) :
    ((listAllActiveStreams streams limit).map Prod.fst).Nodup := by
  have hsorted := (List.perm_insertionSort (fun x y : String × Stream => y.2.startedAt ≤ x.2.startedAt)
    (streams.toList.filter fun x => x.2.status = .active)).map Prod.fst
  refine List.Nodup.sublist ((List.take_sublist limit _).map Prod.fst) (hsorted.nodup_iff.mpr ?_)
  exact List.Nodup.sublist ((List.filter_sublist).map Prod.fst) (nodup_keys streams)

/-- The start of a tick, when the clocks are accounted for. -/
theorem Sweeping.begin (h : ∀ id since, emptySince[id]? = some since → NotLiveSince ticks id since) (rest : List String)
    (report : SweepReport) : Sweeping policy io streams ticks rest
      ⟨if policy.grace.isNone then ∅ else emptySince, streams, report, ⟨policy, [], []⟩⟩ where
  same := rfl
  clocks id since hclock := by
    split at hclock
    · simp at hclock
    · rename_i hon
      rw [Option.isNone_iff_eq_none] at hon
      exact (h id since hclock).cons ⟨hon, nofun⟩
  judged j hj := absurd hj List.not_mem_nil
  ended e he := absurd he List.not_mem_nil
  moved _ := .inl rfl

theorem Sweeping.prune {rest} (h : Sweeping policy io streams ticks rest w) (keep : String → Nat → Bool) :
    Sweeping policy io streams ticks rest { w with emptySince := w.emptySince.filter keep } := by
  refine ⟨h.same, fun id since hclock => h.clocks id since ?_, h.judged, h.ended, h.moved⟩
  rw [TreeMap.getElem?_filter', Option.filter_eq_some_iff] at hclock
  exact hclock.1

/-- **One tick.** -/
theorem Sweeping.runOnce (ctx : EndContext) (policy : SweepPolicy) (io : TickIo) (streams : StreamTable)
    (h : ∀ id since, emptySince[id]? = some since → NotLiveSince ticks id since) :
    Sweeping policy io streams ticks [] (runOnce ctx emptySince streams io policy) := by
  unfold Streams.runOnce
  dsimp only
  split
  · exact .begin h [] _
  · split
    · exact .begin h [] _
    · apply Sweeping.prune
      exact .visits (nodup_listAllActiveStreams streams sweepStreamLimit) (fun x hx => (mem_listAllActiveStreams hx).1)
        (.begin h _ _)

/-- **Every run.** The clocks are accounted for. -/
theorem clocks_of_run {start steps} {world : World}
    (run : Run (sweepStep ctx) (fun _ _ _ => True) (World.start start) steps world) :
    ∀ id since, world.emptySince[id]? = some since → NotLiveSince world.ticks id since := by
  refine run.invariant (I := fun _ world => ∀ id since, world.emptySince[id]? = some since → NotLiveSince world.ticks id since)
    ?_ ?_
  · intro id since hclock
    simp [World.start] at hclock
  · intro _ world step _ _ ih
    cases step with
    | tick policy io => exact (Sweeping.runOnce ctx policy io world.streams ih).clocks
    | change streams => exact ih
    | restart =>
      intro id since hclock
      simp [sweepStep] at hclock

end

/-! ## A tick without failures -/

/-- The stream is live by what the tick is told. -/
def TickIo.occupied (io : TickIo) (x : String × Stream) : Bool :=
  sweepConsidersOccupied (lookupRoom (io.stream x.1).listed x.2)
    (io.liveSources.map fun live => decide (switchSourceId x.1 ∈ live))

def TickIo.overCap (io : TickIo) (policy : SweepPolicy) (x : String × Stream) : Bool :=
  policy.maxBroadcast.any fun cap => cap ≤ broadcastAge x.2 (io.stream x.1).utcNow

/-- Over the cap, or not live with a clock that is at least the grace old. A stream without
a clock gets one when it is judged. -/
def TickIo.due (io : TickIo) (policy : SweepPolicy) (clock : Option Nat) (x : String × Stream) : Bool :=
  io.overCap policy x || policy.grace.any fun grace =>
    !io.occupied x && decide (grace ≤ (io.stream x.1).checkedAt - clock.getD (io.stream x.1).judgedAt)

/-- The database serves the listing and every end, and no one else ends a stream. -/
structure TickIo.Quiet (io : TickIo) : Prop where
  list : io.list = .ok ()
  served : ∀ id, (io.stream id).ending.transition = .served
  alone : ∀ id, (io.stream id).ending.meanwhile = false

def Stream.end (s : Stream) : Stream := { s with status := .ended }

section

variable {s : Stream} {end' : EndIo}

theorem endAndFinaliseStream_served (ctx : EndContext) (streams : StreamTable) (hrow : streams[id]? = some s) (hactive : s.status = .active)
    (hserved : end'.transition = .served) (halone : end'.meanwhile = false) :
    ∃ marker withheld calls, ctx.endAndFinaliseStream streams id s .publish end' =
      (.ok ⟨true, marker, withheld⟩, streams.insert id s.end, calls) := by
  unfold EndContext.endAndFinaliseStream endStreamIfActive
  simp only [hserved, halone, hrow, hactive, CallFate.applied, CallFate.answer, if_true, Bool.false_eq_true, if_false]
  split
  · exact ⟨_, _, _, rfl⟩
  · exact ⟨_, _, _, rfl⟩
  · exact ⟨_, _, _, rfl⟩

theorem autoEndStream_served (ctx : EndContext) (cause : Cause) (hrow : w.streams[id]? = some s) (hactive : s.status = .active)
    (hserved : end'.transition = .served) (halone : end'.meanwhile = false) :
    (w.autoEndStream ctx id s end' cause).streams = w.streams.insert id s.end ∧
    (w.autoEndStream ctx id s end' cause).report.ended = w.report.ended ++ [id] ∧
    (w.autoEndStream ctx id s end' cause).emptySince = w.emptySince.erase id := by
  obtain ⟨marker, withheld, calls, heq⟩ :=
    endAndFinaliseStream_served ctx w.streams hrow hactive hserved halone
  unfold autoEndStream
  rw [heq]
  exact ⟨rfl, rfl, rfl⟩

theorem getElem?_erase_other (clocks : TreeMap String Nat) {other} (hne : other ≠ id) :
    (clocks.erase id)[other]? = clocks[other]? := by
  rw [getElem?_erase, if_neg hne.symm]

/-- The liveness rule ends the stream when it is not live and its clock is old enough, and
leaves the other clocks. -/
theorem judge_quiet (hquiet : io.Quiet) (hrow : w.streams[id]? = some s) (hactive : s.status = .active) (grace : Nat)
    {late} (hlate : late = (!io.occupied (id, s) &&
      decide (grace ≤ (io.stream id).checkedAt - w.emptySince[id]?.getD (io.stream id).judgedAt))) :
    (w.judge ctx io.liveSources grace id s (io.stream id)).streams =
      (if late then w.streams.insert id s.end else w.streams) ∧
    (w.judge ctx io.liveSources grace id s (io.stream id)).report.ended =
      (if late then w.report.ended ++ [id] else w.report.ended) ∧
    ∀ other, other ≠ id → (w.judge ctx io.liveSources grace id s (io.stream id)).emptySince[other]? = w.emptySince[other]? := by
  have hoccupied : sweepConsidersOccupied (lookupRoom (io.stream id).listed s)
      (io.liveSources.map fun live => decide (switchSourceId id ∈ live)) = io.occupied (id, s) := rfl
  unfold judge
  dsimp only
  rw [hoccupied]
  split
  · rename_i hlive
    have hlate : late = false := by rw [hlate, hlive, Bool.not_true, Bool.false_and]
    rw [hlate]
    exact ⟨rfl, rfl, fun other => getElem?_erase_other w.emptySince⟩
  · rename_i hnot
    rw [Bool.not_eq_true] at hnot
    have hother : ∀ other since, other ≠ id → (w.emptySince.insert id since)[other]? = w.emptySince[other]? := by
      intro other since hne
      rw [getElem?_insert, if_neg hne.symm]
    split
    · rename_i hyoung
      have hlate : late = false := by
        rw [hlate, hnot, Bool.not_false, Bool.true_and, decide_eq_false_iff_not]
        omega
      rw [hlate]
      exact ⟨rfl, rfl, fun other => hother other _⟩
    · rename_i hold
      have hlate : late = true := by
        rw [hlate, hnot, Bool.not_false, Bool.true_and, decide_eq_true_eq]
        omega
      rw [hlate]
      let judged : Judgement := ⟨id, (io.stream id).judgedAt, io.occupied (id, s)⟩
      let since := w.emptySince[id]?.getD (io.stream id).judgedAt
      obtain ⟨hstreams, hended, hclocks⟩ := autoEndStream_served ctx (.liveness since (io.stream id).checkedAt)
        (w := ⟨w.emptySince.insert id since, w.streams, w.report, { w.log with judged := judged :: w.log.judged }⟩)
        hrow hactive (hquiet.served id) (hquiet.alone id)
      refine ⟨hstreams, hended, fun other hne => ?_⟩
      rw [hclocks, getElem?_erase_other _ hne]
      exact hother other _ hne

/-- A stream's turn: it is ended when it is due, and the other clocks stay. -/
theorem visit_quiet (ctx : EndContext) (policy : SweepPolicy) (hquiet : io.Quiet) (hrow : w.streams[id]? = some s) (hactive : s.status = .active) :
    (w.visit ctx policy io (id, s)).streams =
      (if io.due policy w.emptySince[id]? (id, s) then w.streams.insert id s.end else w.streams) ∧
    (w.visit ctx policy io (id, s)).report.ended =
      (if io.due policy w.emptySince[id]? (id, s) then w.report.ended ++ [id] else w.report.ended) ∧
    ∀ other, other ≠ id → (w.visit ctx policy io (id, s)).emptySince[other]? = w.emptySince[other]? := by
  unfold visit
  dsimp only
  split
  · rename_i hcap
    have hdue : io.due policy w.emptySince[id]? (id, s) = true := by
      rw [TickIo.due, TickIo.overCap, hcap, Bool.true_or]
    obtain ⟨hstreams, hended, hclocks⟩ := autoEndStream_served ctx (.duration (broadcastAge s (io.stream id).utcNow))
      hrow hactive (hquiet.served id) (hquiet.alone id)
    rw [hstreams, hended, hclocks, if_pos hdue, if_pos hdue]
    exact ⟨rfl, rfl, fun other => getElem?_erase_other w.emptySince⟩
  · rename_i hcap
    rw [Bool.not_eq_true] at hcap
    have hcap : io.overCap policy (id, s) = false := hcap
    split
    · rename_i hoff
      have hdue : io.due policy w.emptySince[id]? (id, s) = false := by
        rw [TickIo.due, hcap, hoff, Option.any_none, Bool.false_or]
      rw [hdue]
      exact ⟨rfl, rfl, fun _ _ => rfl⟩
    · rename_i grace hgrace
      refine judge_quiet hquiet hrow hactive grace ?_
      rw [TickIo.due, hcap, hgrace, Option.any_some, Bool.false_or]

/-- The loop ends exactly the listed streams that are due. -/
theorem visits_quiet (ctx : EndContext) (policy : SweepPolicy) (hquiet : io.Quiet) {l : List (String × Stream)} (hdistinct : (l.map Prod.fst).Nodup)
    (hrows : ∀ x ∈ l, w.streams[x.1]? = some x.2 ∧ x.2.status = .active) (id : String) :
    (id ∈ (l.foldl (visit ctx policy io) w).report.ended ↔
      id ∈ w.report.ended ∨ ∃ s, (id, s) ∈ l ∧ io.due policy w.emptySince[id]? (id, s) = true) ∧
    (l.foldl (visit ctx policy io) w).streams[id]? = w.streams[id]?.map fun s =>
      if (id, s) ∈ l ∧ io.due policy w.emptySince[id]? (id, s) = true then s.end else s := by
  induction l generalizing w with
  | nil => simp
  | cons x l ih =>
    obtain ⟨turn, row⟩ := x
    obtain ⟨hturn, hdistinct⟩ := nodup_cons.mp hdistinct
    obtain ⟨hrow, hactive⟩ := hrows _ mem_cons_self
    obtain ⟨hstreams, hended, hclocks⟩ := visit_quiet ctx policy hquiet hrow hactive
    have hstay : ∀ other, other ≠ turn → (w.visit ctx policy io (turn, row)).streams[other]? = w.streams[other]? := by
      intro other hne
      rw [hstreams]
      split
      · rw [getElem?_insert, if_neg hne.symm]
      · rfl
    have hrest : ∀ x ∈ l, (w.visit ctx policy io (turn, row)).streams[x.1]? = some x.2 ∧ x.2.status = .active := by
      intro x hx
      have hne : x.1 ≠ turn := fun heq => hturn (mem_map.mpr ⟨x, hx, heq⟩)
      rw [hstay x.1 hne]
      exact hrows x (mem_cons_of_mem _ hx)
    obtain ⟨ihended, ihstreams⟩ := ih hdistinct hrest
    rw [List.foldl_cons, ihended, ihstreams]
    by_cases hid : id = turn
    · subst hid
      have hnot : ∀ s, (id, s) ∉ l := fun s hs => hturn (mem_map.mpr ⟨(id, s), hs, rfl⟩)
      rw [hended, hstreams]
      by_cases hdue : io.due policy w.emptySince[id]? (id, row) = true
      · simp [hdue, hnot, hrow]
      · simp [hdue, hnot, hrow]
    · have hclock := hclocks id hid
      rw [hclock, hstay id hid, hended]
      by_cases hdue : io.due policy w.emptySince[turn]? (turn, row) = true
      · simp [hdue, hid]
      · simp [hdue, hid]

theorem mem_listAllActiveStreams_of_le {streams : StreamTable} {limit}
    (hfew : (streams.toList.filter fun x => x.2.status = .active).length ≤ limit) {x} :
    x ∈ listAllActiveStreams streams limit ↔ streams[x.1]? = some x.2 ∧ x.2.status = .active := by
  unfold listAllActiveStreams
  rw [List.take_of_length_le (by rw [List.length_insertionSort]; exact hfew), (List.perm_insertionSort _ _).mem_iff,
    List.mem_filter, decide_eq_true_eq, mem_toList]

/-- A tick with the liveness rule off starts without clocks; it would not read them. -/
theorem due_begin (io : TickIo) (policy : SweepPolicy) (emptySince : TreeMap String Nat) (x : String × Stream) :
    io.due policy (if policy.grace.isNone then ∅ else emptySince)[x.1]? x = io.due policy emptySince[x.1]? x := by
  cases hgrace : policy.grace with
  | none => simp only [TickIo.due, hgrace, Option.any_none]
  | some grace => rfl

theorem due_off (hoff : policy.isOff = true) (clock : Option Nat) (x : String × Stream) :
    io.due policy clock x = false := by
  rw [SweepPolicy.isOff, Bool.and_eq_true, Option.isNone_iff_eq_none, Option.isNone_iff_eq_none] at hoff
  rw [TickIo.due, TickIo.overCap, hoff.1, hoff.2]
  rfl

/-- A tick without failures over at most the listing limit. -/
theorem runOnce_quiet (ctx : EndContext) (policy : SweepPolicy) (emptySince : TreeMap String Nat) (streams : StreamTable)
    (hquiet : io.Quiet) (hfew : (streams.toList.filter fun x => x.2.status = .active).length ≤ sweepStreamLimit)
    (id : String) :
    (id ∈ (runOnce ctx emptySince streams io policy).report.ended ↔
      ∃ s, (streams[id]? = some s ∧ s.status = .active) ∧ io.due policy emptySince[id]? (id, s) = true) ∧
    (runOnce ctx emptySince streams io policy).streams[id]? = streams[id]?.map fun s =>
      if s.status = .active ∧ io.due policy emptySince[id]? (id, s) = true then s.end else s := by
  unfold runOnce
  dsimp only
  split
  · rename_i hoff
    simp [due_off hoff]
  · rw [hquiet.list]
    have hloop := visits_quiet ctx policy hquiet (nodup_listAllActiveStreams streams sweepStreamLimit)
      (w := ⟨if policy.grace.isNone then ∅ else emptySince, streams,
        ⟨(listAllActiveStreams streams sweepStreamLimit).length, [], 0, []⟩, ⟨policy, [], []⟩⟩)
      (fun x hx => mem_listAllActiveStreams hx) id
    have hclock := fun s => due_begin io policy emptySince (id, s)
    simp only [mem_listAllActiveStreams_of_le hfew, hclock, List.not_mem_nil, false_or] at hloop
    refine ⟨hloop.1, hloop.2.trans ?_⟩
    cases hrow : streams[id]? with
    | none => rfl
    | some s => simp

end

/-- A tick at any point of a run ends a stream by the liveness rule only when the stream was
not live for the grace period, and by the duration rule only when it is over the cap; the
rows it moved are logged. Without failures it ends exactly the streams that are due. -/
theorem sweep_ends_rightly {start : StreamTable} {steps : List SweepStep} {world : World}
    (run : Run (sweepStep ctx) (fun _ _ _ => True) (World.start start) steps world) (policy : SweepPolicy) (io : TickIo) :
    let tick := runOnce ctx world.emptySince world.streams io policy
    (∀ e ∈ tick.log.ended, EndedRightly policy io world.streams (tick.log :: world.ticks) e) ∧
    (∀ id, tick.streams[id]? ≠ world.streams[id]? → (io.stream id).ending.meanwhile = false →
      ∃ e ∈ tick.log.ended, e.id = id) ∧
    (io.Quiet → (world.streams.toList.filter fun x => x.2.status = .active).length ≤ sweepStreamLimit → ∀ id,
      (id ∈ tick.report.ended ↔ ∃ s, (world.streams[id]? = some s ∧ s.status = .active) ∧
        io.due policy world.emptySince[id]? (id, s) = true) ∧
      tick.streams[id]? = world.streams[id]?.map fun s =>
        if s.status = .active ∧ io.due policy world.emptySince[id]? (id, s) = true then s.end else s) := by
  have htick := Sweeping.runOnce ctx policy io world.streams (clocks_of_run run)
  refine ⟨fun e he => (htick.ended e he).2, fun id hchanged halone => ?_, ?_⟩
  · rcases htick.moved id with hsame | hmeanwhile | hlogged
    · exact absurd hsame hchanged
    · rw [halone] at hmeanwhile
      cases hmeanwhile
    · exact hlogged
  · exact fun hquiet hfew => runOnce_quiet ctx policy world.emptySince world.streams hquiet hfew

/-- One stream no one is in, asked about `t` after the first tick. -/
def lonelyTick (t : Nat) : TickIo where
  list := .ok ()
  liveSources := some []
  stream _ := ⟨0, .ok 0, t, t, ⟨true, [], false, .served, .ok true, none⟩⟩

theorem lonelyTick_quiet (t : Nat) : (lonelyTick t).Quiet := ⟨rfl, fun _ => rfl, fun _ => rfl⟩

def lonelyStream : Stream := ⟨1, "@host", .active, some "room", 0, none⟩

/-- The tick that starts the clock. -/
def lonelyWorld : World :=
  sweepStep ⟨true, true, true⟩ (World.start (TreeMap.ofList [("s", lonelyStream)])) (.tick ⟨some 10, none⟩ (lonelyTick 5))

theorem lonelyStream_swept :
    (runOnce ⟨true, true, true⟩ lonelyWorld.emptySince lonelyWorld.streams (lonelyTick 15) ⟨some 10, none⟩).log.ended =
      [⟨"s", .liveness 5 15⟩] ∧ lonelyWorld.streams["s"]? = some lonelyStream ∧
    (lonelyTick 15).due ⟨some 10, none⟩ lonelyWorld.emptySince["s"]? ("s", lonelyStream) = true ∧
    (lonelyWorld.streams.toList.filter fun x => x.2.status = .active).length ≤ sweepStreamLimit := by
  decide +kernel

theorem sweep_ends_lonelyStream :
    let tick := runOnce ⟨true, true, true⟩ lonelyWorld.emptySince lonelyWorld.streams (lonelyTick 15) ⟨some 10, none⟩
    EndedRightly ⟨some 10, none⟩ (lonelyTick 15) lonelyWorld.streams (tick.log :: lonelyWorld.ticks) ⟨"s", .liveness 5 15⟩ ∧
    "s" ∈ tick.report.ended ∧ tick.streams["s"]? = some lonelyStream.end := by
  obtain ⟨hended, hrow, hdue, hfew⟩ := lonelyStream_swept
  have hrun : Run (sweepStep ⟨true, true, true⟩) (fun _ _ _ => True) (World.start (TreeMap.ofList [("s", lonelyStream)]))
      [.tick ⟨some 10, none⟩ (lonelyTick 5)] lonelyWorld := .next .start trivial
  obtain ⟨hright, -, hquiet⟩ := sweep_ends_rightly hrun ⟨some 10, none⟩ (lonelyTick 15)
  obtain ⟨hreport, hstreams⟩ := hquiet (lonelyTick_quiet 15) hfew "s"
  refine ⟨hright _ (by rw [hended]; exact mem_cons_self), hreport.mpr ⟨_, ⟨hrow, rfl⟩, hdue⟩, ?_⟩
  rw [hstreams, hrow, Option.map_some, if_pos ⟨rfl, hdue⟩]

end MatrixMedia.Streams

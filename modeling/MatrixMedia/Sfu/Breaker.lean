import Mathlib.Data.List.Basic

/-!
# The circuit breaker (`mm-sfu/src/lib.rs`)

A call checks the state, runs, and updates whatever state it then finds. Histories of checks and
updates are kept newest first. The failures of the closed state are pruned only when one arrives, which
loses none that could count again (`Counts`), so the breaker opens exactly on a burst. A half-open
breaker admits every call, and a call from before may end while it is half-open, so recovery is decided
by one probe only when calls keep apart (`Apart`).
-/

namespace MatrixMedia.Sfu

inductive SfuError where
  | connectionFailed (message : String)
  | roomNotFound (room : String)
  | participantNotFound (participant : String)
  | timeout (secs : Nat)
  | circuitOpen (secs : Nat)
  | internal (message : String)

def SfuError.isOutage : SfuError → Bool
  | .connectionFailed _ | .timeout _ | .internal _ | .circuitOpen _ => true
  | .roomNotFound _ | .participantNotFound _ => false

/-- How a call ends. -/
abbrev Outcome := Except SfuError Unit

def isFailure : Outcome → Bool
  | .ok () => false
  | .error e => e.isOutage

/-- With instants in nanoseconds. -/
inductive CircuitState where
  | closed (failures : List Nat)
  | opened (openedAt : Nat)
  | halfOpen
deriving DecidableEq

structure CircuitBreaker where
  failureThreshold : Nat
  recoveryTimeout : Nat
  failureWindow : Nat

namespace CircuitBreaker
variable (b : CircuitBreaker)

/-- The times within the window. -/
def recent (now : Nat) (times : List Nat) : List Nat :=
  times.filter fun t => now - t < b.failureWindow

/-- Before a call: the state then, and the error of a call that is rejected. -/
def check (now : Nat) : CircuitState → CircuitState × Option SfuError
  | .opened openedAt =>
    if b.recoveryTimeout ≤ now - openedAt then (.halfOpen, none)
    else (.opened openedAt, some (.circuitOpen ((b.recoveryTimeout - (now - openedAt)) / 1000000000)))
  | state => (state, none)

/-- After a call. An answer that is no outage is as good as a success. -/
def update (now : Nat) (result : Outcome) : CircuitState → CircuitState
  | .halfOpen => if isFailure result then .opened now else .closed []
  | .closed failures =>
    if isFailure result then
      let failures := b.recent now failures ++ [now]
      if b.failureThreshold ≤ failures.length then .opened now else .closed failures
    else .closed failures
  | .opened openedAt => .opened openedAt

/-! ## Histories -/

inductive Event where
  | check
  | update (result : Outcome)

structure Entry where
  now : Nat
  call : Nat
  event : Event

def step (e : Entry) (state : CircuitState) : CircuitState :=
  match e.event with
  | .check => (b.check e.now state).1
  | .update result => b.update e.now result state

def after : List Entry → CircuitState
  | [] => .closed []
  | e :: older => b.step e (after older)

/-- The outages recorded since the breaker last became closed. -/
def outages : List Entry → List Nat
  | [] => []
  | e :: older =>
    match b.after older, e.event with
    | .closed _, .update result => if isFailure result then e.now :: outages older else outages older
    | .closed _, .check => outages older
    | _, _ => []

/-- When the breaker last opened. -/
def lastOpened : List Entry → Option Nat
  | [] => none
  | e :: older =>
    match b.after older, b.after (e :: older) with
    | .opened _, _ => lastOpened older
    | _, .opened _ => some e.now
    | _, _ => lastOpened older

variable {b} {h : List Entry} {now : Nat}

/-! ## Opening -/

/-- From `now` on the failures that are kept count as the outages do. -/
def Counts (b : CircuitBreaker) (now : Nat) (failures outages : List Nat) : Prop :=
  ∀ t, now ≤ t → (b.recent t failures).length = (b.recent t outages).length

/-- What is pruned now is out of the window for good. -/
theorem Counts.push {failures outages} (hc : Counts b now failures outages) :
    Counts b now (b.recent now failures ++ [now]) (now :: outages) := by
  intro t ht
  have pruned : b.recent t (b.recent now failures) = b.recent t failures := by
    unfold recent
    rw [List.filter_filter]
    refine List.filter_congr fun x _ => ?_
    by_cases hx : t - x < b.failureWindow
    · simp [hx, show now - x < b.failureWindow by omega]
    · simp [hx]
  have same := hc t ht
  unfold recent at pruned same ⊢
  rw [List.filter_append, pruned, List.filter_cons, List.filter_cons, List.filter_nil]
  split <;> simp [same]

/-- The failures of a closed breaker are the outages that can still count. -/
theorem counts_after (ordered : (now :: h.map Entry.now).Pairwise (· ≥ ·)) {failures} (hstate : b.after h = .closed failures) :
    Counts b now failures (b.outages h) := by
  induction h generalizing now failures with
  | nil =>
    cases hstate
    exact fun _ _ => rfl
  | cons e older ih =>
    rw [List.map_cons, List.pairwise_cons] at ordered
    have later : e.now ≤ now := ordered.1 _ List.mem_cons_self
    obtain ⟨t, call, event⟩ := e
    have kept : ∀ {failures}, b.after older = .closed failures → Counts b now failures (b.outages older) := fun heq x hx =>
      ih ordered.2 heq x (Nat.le_trans later hx)
    have pushed : ∀ {failures}, b.after older = .closed failures →
        Counts b now (b.recent t failures ++ [t]) (t :: b.outages older) := fun heq x hx =>
      (ih ordered.2 heq).push x (Nat.le_trans later hx)
    have empty : Counts b now [] [] := fun _ _ => rfl
    cases hbefore : b.after older with
    | closed before =>
      cases event with
      | check =>
        simp only [after, hbefore, step, check, CircuitState.closed.injEq, outages] at hstate ⊢
        exact hstate ▸ kept hbefore
      | update result =>
        simp only [after, hbefore, step, update, outages] at hstate ⊢
        split at hstate
        · rw [if_pos ‹_›]
          split at hstate
          · cases hstate
          · cases hstate
            exact pushed hbefore
        · rw [if_neg ‹_›]
          cases hstate
          exact kept hbefore
    | opened openedAt =>
      -- The recovery time leads to a half-open breaker first.
      simp only [after, hbefore, step] at hstate
      cases event with
      | check =>
        simp only [check] at hstate
        split at hstate <;> cases hstate
      | update result => cases hstate
    | halfOpen =>
      simp only [after, hbefore, step, outages] at hstate ⊢
      cases event with
      | check => cases hstate
      | update result =>
        simp only [update] at hstate
        split at hstate
        · cases hstate
        · cases hstate
          exact empty

/-- A check changes the state only from open to half-open, and then admits the call. -/
theorem check_cases (now : Nat) (state : CircuitState) :
    (b.check now state).1 = state ∨ ∃ t, state = .opened t ∧ b.check now state = (.halfOpen, none) := by
  cases state with
  | closed | halfOpen => exact .inl rfl
  | opened t =>
    by_cases hlong : b.recoveryTimeout ≤ now - t
    · exact .inr ⟨t, rfl, if_pos hlong⟩
    · exact .inl (congrArg Prod.fst (if_neg hlong))

/-- After an update the breaker is not half-open, and if it was not open it opens now. -/
theorem update_cases (now : Nat) (result : Outcome) (state : CircuitState) : b.update now result state ≠ .halfOpen ∧
    ∀ openedAt, b.update now result state = .opened openedAt → state = .opened openedAt ∨ (∀ t, state ≠ .opened t) ∧ openedAt = now := by
  cases state with
  | opened t => simp [update]
  | halfOpen | closed failures => grind [update]

theorem step_opened {e state openedAt} (hstep : b.step e state = .opened openedAt) :
    state = .opened openedAt ∨ (∀ t, state ≠ .opened t) ∧ openedAt = e.now := by
  obtain ⟨now, call, event⟩ := e
  cases event with
  | check =>
    rcases b.check_cases now state with hsame | ⟨t, rfl, hhalf⟩
    · exact .inl (hsame.symm.trans hstep)
    · cases (congrArg Prod.fst hhalf).symm.trans hstep
  | update result => exact (b.update_cases now result state).2 openedAt hstep

theorem lastOpened_after {openedAt} (hstate : b.after h = .opened openedAt) : b.lastOpened h = some openedAt := by
  induction h generalizing openedAt with
  | nil => cases hstate
  | cons e older ih =>
    rcases step_opened hstate with hbefore | ⟨hbefore, rfl⟩
    · simp only [lastOpened, hbefore]
      exact ih hbefore
    · cases hstate' : b.after older <;> simp_all [lastOpened]

/-- **The breaker opens exactly on a burst of outages**, and a call is rejected only before the recovery
time is over. -/
theorem opens_on_burst (b : CircuitBreaker) (h : List Entry) (now : Nat) (ordered : (now :: h.map Entry.now).Pairwise (· ≥ ·)) :
    (∀ result failures, b.after h = .closed failures → ((∃ openedAt, b.update now result (.closed failures) = .opened openedAt) ↔
      isFailure result = true ∧ b.failureThreshold ≤ (b.recent now (b.outages h)).length + 1)) ∧
    ∀ e, (b.check now (b.after h)).2 = some e → ∃ openedAt, b.lastOpened h = some openedAt ∧ now - openedAt < b.recoveryTimeout := by
  refine ⟨fun result failures hstate => ?_, fun e hrejected => ?_⟩
  · rw [← counts_after ordered hstate now (Nat.le_refl now)]
    by_cases hfailure : isFailure result = true
    · by_cases hburst : b.failureThreshold ≤ (b.recent now failures).length + 1 <;>
        simp [update, hfailure, hburst]
    · simp [update, hfailure]
  · cases hstate : b.after h with
    | opened openedAt =>
      rw [hstate, check] at hrejected
      split at hrejected
      · cases hrejected
      · exact ⟨openedAt, lastOpened_after hstate, by omega⟩
    | closed | halfOpen =>
      rw [hstate] at hrejected
      cases hrejected

/-- Two outages within the window. -/
theorem opens_on_burst_two : ∃ openedAt, (⟨2, 60, 30⟩ : CircuitBreaker).update 20 (.error (.timeout 10)) (.closed [10]) = .opened openedAt :=
  ((opens_on_burst ⟨2, 60, 30⟩ [⟨10, 1, .update (.error (.timeout 10))⟩] 20 (by decide)).1 _ _ rfl).mpr (by decide)

/-! ## Recovery -/

variable (b)

/-- The calls that run. -/
def running : List Entry → List Nat
  | [] => []
  | e :: older =>
    match e.event with
    | .check => if (b.check e.now (b.after older)).2.isNone then e.call :: running older else running older
    | .update _ => (running older).erase e.call

/-- The calls started since the breaker last left the open state. -/
def started : List Entry → List Nat
  | [] => []
  | e :: older =>
    match e.event, b.after older, (b.check e.now (b.after older)).2 with
    | .update _, _, _ | .check, _, some _ => started older
    | .check, .opened _, none => [e.call]
    | .check, _, none => e.call :: started older

/-- Only calls that run come to an end. -/
def Interleaved : List Entry → Prop
  | [] => True
  | e :: older => Interleaved older ∧ ∀ result, e.event = .update result → e.call ∈ b.running older

/-- A call leaves the open state when no other runs, and none comes while the breaker is half-open. -/
def Apart : List Entry → Prop
  | [] => True
  | e :: older => Apart older ∧ (e.event = .check → b.after older ≠ .halfOpen ∧
      ∀ t, b.after older = .opened t → b.step e (.opened t) = .halfOpen → b.running older = [])

variable {b}

/-- Only a check can find or make the breaker half-open. -/
theorem step_halfOpen {e state} (hstep : b.step e state = .halfOpen) :
    e.event = .check ∧ (state = .halfOpen ∨ ∃ t, state = .opened t ∧ (b.check e.now state).2 = none) := by
  obtain ⟨now, call, event⟩ := e
  cases event with
  | check =>
    refine ⟨rfl, ?_⟩
    rcases b.check_cases now state with hsame | ⟨t, rfl, hhalf⟩
    · exact .inl (hsame.symm.trans hstep)
    · exact .inr ⟨t, rfl, congrArg Prod.snd hhalf⟩
  | update result => exact absurd hstep (b.update_cases now result state).1

theorem probe_alone (apart : b.Apart h) (hstate : b.after h = .halfOpen) : ∃ probe, b.started h = [probe] ∧ b.running h = [probe] := by
  cases h with
  | nil => cases hstate
  | cons e older =>
    obtain ⟨t, call, event⟩ := e
    obtain ⟨rfl, hbefore | ⟨openedAt, hbefore, hadmitted⟩⟩ := step_halfOpen hstate
    · exact absurd hbefore (apart.2 rfl).1
    · have halone := (apart.2 rfl).2 openedAt hbefore (hbefore ▸ hstate)
      rw [hbefore] at hadmitted
      simp only [started, running, hbefore, hadmitted, halone]
      exact ⟨call, rfl, rfl⟩

/-- **One probe decides the recovery** when calls keep apart: it is the only call started since the
breaker left the open state, nothing but its end can come next, and that decides. -/
theorem one_probe_decides (b : CircuitBreaker) (h : List Entry) (apart : b.Apart h) (hstate : b.after h = .halfOpen) :
    ∃ probe, b.started h = [probe] ∧ ∀ e, b.Interleaved (e :: h) → b.Apart (e :: h) → ∃ result, e.event = .update result ∧ e.call = probe ∧
      b.after (e :: h) = if isFailure result then .opened e.now else .closed [] := by
  obtain ⟨probe, hstarted, hrunning⟩ := probe_alone apart hstate
  refine ⟨probe, hstarted, fun e interleaved apart' => ?_⟩
  cases hevent : e.event with
  | check => exact absurd hstate (apart'.2 hevent).1
  | update result =>
    have hmem := interleaved.2 result hevent
    rw [hrunning, List.mem_singleton] at hmem
    exact ⟨result, rfl, hmem, by rw [after, hstate, step, hevent]; rfl⟩

/-- It opens at the first outage and recovers at once. -/
def hasty : CircuitBreaker := ⟨1, 0, 30⟩

def probing : List Entry := [⟨3, 2, .check⟩, ⟨2, 1, .update (.error (.timeout 10))⟩, ⟨1, 1, .check⟩]

/-- The probe succeeds, which closes the breaker. -/
theorem one_probe_decides_hasty : hasty.started probing = [2] ∧ hasty.after (⟨4, 2, .update (.ok ())⟩ :: probing) = .closed [] := by
  have apart : hasty.Apart probing := ⟨⟨⟨trivial, fun _ => ⟨nofun, nofun⟩⟩, nofun⟩, fun _ => ⟨nofun, fun _ _ _ => rfl⟩⟩
  obtain ⟨probe, hstarted, hend⟩ := one_probe_decides hasty probing apart rfl
  obtain ⟨result, hresult, -, hafter⟩ := hend ⟨4, 2, .update (.ok ())⟩
    ⟨⟨⟨⟨trivial, nofun⟩, fun _ _ => by decide⟩, nofun⟩, fun _ _ => by decide⟩ ⟨apart, nofun⟩
  cases hresult
  exact ⟨rfl, hafter⟩

/-- Two probes are started, and a call from before the breaker opened closes it. -/
theorem two_probes : ∃ h e, hasty.Interleaved (e :: h) ∧ hasty.after h = .halfOpen ∧ hasty.started h = [4, 3] ∧ e.call = 2 ∧
    hasty.after (e :: h) = .closed [] := by
  refine ⟨[⟨5, 4, .check⟩, ⟨4, 3, .check⟩, ⟨3, 1, .update (.error (.timeout 10))⟩, ⟨2, 2, .check⟩, ⟨1, 1, .check⟩], ⟨6, 2, .update (.ok ())⟩,
    ⟨⟨⟨⟨⟨⟨trivial, nofun⟩, nofun⟩, fun _ _ => ?_⟩, nofun⟩, nofun⟩, fun _ _ => ?_⟩, rfl, rfl, rfl, rfl⟩
  all_goals decide

end CircuitBreaker

end MatrixMedia.Sfu

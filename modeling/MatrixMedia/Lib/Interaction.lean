import MatrixMedia.Lib.Run

/-!
# Programs that talk to a shared service

A `Prog` makes requests one at a time and goes on from each reply. Several of them run at
once over one service (`Pool`): between any two requests of a program the service may
move by itself and other programs may be served, a reply may be lost, and the process may
die with everything in flight. `Safe` is the rely-guarantee judgement for one program: it
only makes requests it is allowed to make, and what it returns meets its postcondition,
whatever the others do within `rely`. `Pool.sound` puts safe programs together.
-/

namespace Lib.Interaction
open List

/-- A program over requests `Req`, each with its own type of replies. -/
inductive Prog (Req : Type) (Resp : Req → Type) (α : Type) : Type where
  | ret (a : α)
  | call (q : Req) (next : Resp q → Prog Req Resp α)

namespace Prog
variable {Req : Type} {Resp : Req → Type} {α β ε : Type}

def bind : Prog Req Resp α → (α → Prog Req Resp β) → Prog Req Resp β
  | .ret a, f => f a
  | .call q next, f => .call q fun r => (next r).bind f

theorem bind_assoc {γ : Type} (p : Prog Req Resp α) (f : α → Prog Req Resp β) (g : β → Prog Req Resp γ) :
    (p.bind f).bind g = p.bind fun a => (f a).bind g := by
  induction p with
  | ret a => rfl
  | call q next ih => exact congrArg (Prog.call q) (funext ih)

/-- The `?` operator: go on from a success, return a failure. -/
def andThen (p : Prog Req Resp (Except ε α)) (f : α → Prog Req Resp (Except ε β)) : Prog Req Resp (Except ε β) :=
  p.bind fun r => match r with
    | .ok a => f a
    | .error e => .ret (.error e)

/-- The program with each request wrapped in one of a larger service. -/
def via {Req' : Type} {Resp' : Req' → Type} (f : Req → Req') (reply : (q : Req) → Resp' (f q) → Resp q) :
    Prog Req Resp α → Prog Req' Resp' α
  | .ret a => .ret a
  | .call q next => .call (f q) fun r => (next (reply q r)).via f reply

/-- The program with each request carried out by a program of another service. -/
def interp {Req' : Type} {Resp' : Req' → Type} (carryOut : (q : Req) → Prog Req' Resp' (Resp q)) :
    Prog Req Resp α → Prog Req' Resp' α
  | .ret a => .ret a
  | .call q next => (carryOut q).bind fun r => (next r).interp carryOut

end Prog

/-- A service: `fate` is what the outside decides about one request, `move` what the
service does by itself. -/
structure Service (σ φ μ : Type) (Req : Type) (Resp : Req → Type) where
  request : σ → (q : Req) → φ → σ × Resp q
  move : σ → μ → σ

/-- How a call ends: it is served, it fails without effect, or it takes effect while the
caller sees an error. -/
inductive CallFate where
  | served
  | failed (e : String)
  | unconfirmed (e : String)
deriving DecidableEq

/-- The call took effect. -/
def CallFate.applied : CallFate → Bool
  | .served | .unconfirmed _ => true
  | .failed _ => false

/-- What the caller sees of a call that would answer `reply`. -/
def CallFate.answer {α : Type} (reply : Except String α) : CallFate → Except String α
  | .served => reply
  | .failed e | .unconfirmed e => .error e

theorem CallFate.answer_eq_ok {α : Type} {reply : Except String α} {fate : CallFate} {a : α} :
    fate.answer reply = .ok a ↔ fate = .served ∧ reply = .ok a := by
  cases fate with
  | served => exact ⟨fun h => ⟨rfl, h⟩, fun h => h.2⟩
  | failed | unconfirmed => simp [CallFate.answer]

/-- A write: the state it leaves and what the caller sees. One that the service refuses
changes nothing. -/
def CallFate.write {σ α : Type} (s : σ) (result : Except String (σ × α)) (fate : CallFate) : σ × Except String α :=
  match result with
  | .ok (s', a) => (if fate.applied then s' else s, fate.answer (.ok a))
  | .error e => (s, fate.answer (.error e))

theorem CallFate.write_eq {σ α : Type} {s} (result : Except String (σ × α)) (fate : CallFate) :
    (fate.write s result).1 = s ∨ ∃ s' a, result = .ok (s', a) ∧ (fate.write s result).1 = s' := by
  unfold CallFate.write
  cases result with
  | error e => exact .inl rfl
  | ok x =>
    cases hfate : fate.applied with
    | false => exact .inl (by simp)
    | true => exact .inr ⟨x.1, x.2, rfl, by simp⟩

/-- A write that the caller sees succeed took effect. -/
theorem CallFate.write_eq_ok {σ α : Type} {s : σ} {result : Except String (σ × α)} {fate : CallFate} {a : α}
    (h : (fate.write s result).2 = .ok a) : fate = .served ∧ ∃ s', result = .ok (s', a) ∧ (fate.write s result).1 = s' := by
  cases result with
  | error e => exact absurd (CallFate.answer_eq_ok.mp h).2 (by simp)
  | ok x =>
    obtain ⟨rfl, heq⟩ := CallFate.answer_eq_ok.mp h
    cases heq
    exact ⟨rfl, x.1, rfl, rfl⟩

/-- A program served alone, each request with the next of these fates. -/
def Prog.exec {σ φ μ α : Type} {Req : Type} {Resp : Req → Type} (S : Service σ φ μ Req Resp) :
    Prog Req Resp α → σ → List φ → Option (α × σ)
  | .ret a, s, _ => some (a, s)
  | .call _ _, _, [] => none
  | .call q next, s, fate :: fates =>
    let (s', r) := S.request s q fate
    (next r).exec S s' fates

section
variable {σ φ μ κ α β ε : Type} {Req : Type} {Resp : Req → Type} {S : Service σ φ μ Req Resp}

/-- What programs promise and may expect: an invariant of the service, how its state can
change under them, which requests they may make, and which fates and moves are possible. -/
structure Discipline (S : Service σ φ μ Req Resp) where
  inv : σ → Prop
  rely : σ → σ → Prop
  allowed : σ → Req → Prop
  admits : σ → Req → φ → Prop
  moves : σ → μ → Prop
  rely_refl : ∀ s, rely s s
  rely_trans : ∀ {s₁ s₂ s₃}, rely s₁ s₂ → rely s₂ s₃ → rely s₁ s₃
  request_keeps : ∀ {s q fate}, inv s → allowed s q → admits s q fate →
    inv (S.request s q fate).1 ∧ rely s (S.request s q fate).1
  move_keeps : ∀ {s m}, inv s → moves s m → inv (S.move s m) ∧ rely s (S.move s m)

variable (D : Discipline S)

/-- `q` in state `s` can leave `s'` and be answered by `r`. -/
def Discipline.Answers (s : σ) (q : Req) (s' : σ) (r : Resp q) : Prop :=
  ∃ fate, D.admits s q fate ∧ S.request s q fate = (s', r)

/-- A program that keeps to `D` from state `s` on and returns only what `Q` allows. -/
def Safe (Q : α → σ → Prop) : Prog Req Resp α → σ → Prop
  | .ret a, s => ∀ s', D.inv s' → D.rely s s' → Q a s'
  | .call q next, s => ∀ s', D.inv s' → D.rely s s' → D.allowed s' q ∧
      ∀ s'' r, D.Answers s' q s'' r → D.inv s'' → D.rely s' s'' → Safe Q (next r) s''

variable {D} {Q R : α → σ → Prop} {p : Prog Req Resp α} {s s' : σ}

theorem Safe.ret {a} (h : ∀ s', D.inv s' → D.rely s s' → Q a s') : Safe D Q (.ret a) s := h

theorem Safe.call {q next}
    (h : ∀ s', D.inv s' → D.rely s s' → D.allowed s' q ∧
      ∀ s'' r, D.Answers s' q s'' r → D.inv s'' → D.rely s' s'' → Safe D Q (next r) s'') :
    Safe D Q (.call q next) s := h

/-- What others do leaves a safe program safe. -/
theorem Safe.of_rely (h : Safe D Q p s) (hrely : D.rely s s') : Safe D Q p s' := by
  cases p with
  | ret | call => exact fun s'' hinv hrely' => h s'' hinv (D.rely_trans hrely hrely')

/-- It is enough to be safe after whatever the others do next. -/
theorem Safe.intro (h : ∀ s', D.inv s' → D.rely s s' → Safe D Q p s') : Safe D Q p s := by
  cases p with
  | ret | call => exact fun s' hinv hrely => h s' hinv hrely s' hinv (D.rely_refl s')

theorem Safe.weaken (h : Safe D Q p s) (hQ : ∀ a s', D.inv s' → D.rely s s' → Q a s' → R a s') : Safe D R p s := by
  induction p generalizing s with
  | ret a => exact fun s' hinv hrely => hQ a s' hinv hrely (h s' hinv hrely)
  | call q next ih =>
    intro s' hinv hrely
    obtain ⟨hallowed, hnext⟩ := h s' hinv hrely
    refine ⟨hallowed, ?_⟩
    intro s'' r hanswer hinv' hrely'
    apply ih r (hnext s'' r hanswer hinv' hrely')
    intro a s₃ hinv₃ hrely₃
    exact hQ a s₃ hinv₃ (D.rely_trans hrely (D.rely_trans hrely' hrely₃))

/-- Sequencing: what is left runs in a state that `p` and the others reached from `s`. -/
theorem Safe.bind {f : α → Prog Req Resp β} {Q : β → σ → Prop} (h : Safe D R p s)
    (hnext : ∀ a s', D.inv s' → D.rely s s' → R a s' → Safe D Q (f a) s') : Safe D Q (p.bind f) s := by
  induction p generalizing s with
  | ret a => exact Safe.intro fun s' hinv hrely => hnext a s' hinv hrely (h s' hinv hrely)
  | call q next ih =>
    intro s' hinv hrely
    obtain ⟨hallowed, hreply⟩ := h s' hinv hrely
    refine ⟨hallowed, ?_⟩
    intro s'' r hanswer hinv' hrely'
    apply ih r (hreply s'' r hanswer hinv' hrely')
    intro a s₃ hinv₃ hrely₃
    exact hnext a s₃ hinv₃ (D.rely_trans hrely (D.rely_trans hrely' hrely₃))

/-- The postcondition of a fallible program: `R` for what it returns on success. -/
def Returns (R : α → σ → Prop) (r : Except ε α) (s : σ) : Prop := ∀ a, r = .ok a → R a s

theorem Safe.error {R} (e : ε) : Safe D (Returns R) (.ret (.error e) : Prog Req Resp (Except ε α)) s := by
  intro s' _ _ a h
  cases h

theorem Safe.ok {R a} (h : ∀ s', D.inv s' → D.rely s s' → R a s') :
    Safe D (Returns R) (.ret (.ok a) : Prog Req Resp (Except ε α)) s := by
  intro s' hinv hrely a' ha'
  cases ha'
  exact h s' hinv hrely

/-- The rule for `?`. -/
theorem Safe.andThen {p : Prog Req Resp (Except ε α)} {f : α → Prog Req Resp (Except ε β)} {R : α → σ → Prop}
    {R' : β → σ → Prop} (h : Safe D (Returns R) p s)
    (hok : ∀ a s', D.inv s' → D.rely s s' → R a s' → Safe D (Returns R') (f a) s') :
    Safe D (Returns R') (p.andThen f) s := by
  apply h.bind
  intro r s' hinv hrely hr
  cases r with
  | ok a => exact hok a s' hinv hrely (hr a rfl)
  | error e => exact Safe.error e

/-- Every request of the program is one of `P`. -/
def Prog.Uses (P : Req → Prop) : Prog Req Resp α → Prop
  | .ret _ => True
  | .call q next => P q ∧ ∀ r, (next r).Uses P

theorem Prog.Uses.mono {P P'} (h : p.Uses P) (hP : ∀ q, P q → P' q) : p.Uses P' := by
  induction p with
  | ret a => trivial
  | call q next ih => exact ⟨hP q h.1, fun r => ih r (h.2 r)⟩

theorem Prog.Uses.bind {P : Req → Prop} {f : α → Prog Req Resp β} (h : p.Uses P) (hnext : ∀ a, (f a).Uses P) :
    (p.bind f).Uses P := by
  induction p with
  | ret a => exact hnext a
  | call q next ih => exact ⟨h.1, fun r => ih r (h.2 r)⟩

theorem Prog.Uses.andThen {P : Req → Prop} {p : Prog Req Resp (Except ε α)} {f : α → Prog Req Resp (Except ε β)}
    (h : p.Uses P) (hnext : ∀ a, (f a).Uses P) : (p.andThen f).Uses P := by
  apply h.bind
  intro r
  cases r with
  | ok a => exact hnext a
  | error e => trivial

/-- Every call of the program, with what follows it, is one of `C`. -/
def Prog.Every (C : (q : Req) → (Resp q → Prog Req Resp α) → Prop) : Prog Req Resp α → Prop
  | .ret _ => True
  | .call q next => C q next ∧ ∀ r, (next r).Every C

theorem Prog.Every.of_uses {C P} (hC : ∀ q next, P q → C q next)
    (h : p.Uses P) : p.Every C := by
  induction p with
  | ret a => trivial
  | call q next ih => exact ⟨hC q next h.1, fun r => ih r (h.2 r)⟩

/-- The program returns `a` after exactly these requests and replies. -/
inductive Prog.Path : Prog Req Resp α → List ((q : Req) × Resp q) → α → Prop where
  | ret (a : α) : Path (.ret a) [] a
  | call {q : Req} {next : Resp q → Prog Req Resp α} {r : Resp q} {es : List ((q : Req) × Resp q)} {a : α} :
    Path (next r) es a → Path (.call q next) (⟨q, r⟩ :: es) a

/-- A path through a sequence is a path through each part. -/
theorem Prog.Path.of_bind {f : α → Prog Req Resp β} {es : List ((q : Req) × Resp q)} {b : β}
    (h : (p.bind f).Path es b) : ∃ es₁ es₂ a, es = es₁ ++ es₂ ∧ p.Path es₁ a ∧ (f a).Path es₂ b := by
  induction p generalizing es with
  | ret a => exact ⟨[], es, a, rfl, .ret a, h⟩
  | call q next ih =>
    cases h with
    | call h =>
      obtain ⟨es₁, es₂, a, rfl, h₁, h₂⟩ := ih _ h
      exact ⟨_ :: es₁, es₂, a, rfl, .call h₁, h₂⟩

/-- A path through `?` ends at a failure, or goes on from a success. -/
theorem Prog.Path.of_andThen {p : Prog Req Resp (Except ε α)} {f : α → Prog Req Resp (Except ε β)}
    {es : List ((q : Req) × Resp q)} {r : Except ε β} (h : (p.andThen f).Path es r) :
    (∃ e, r = .error e) ∨ ∃ es₁ es₂ a, es = es₁ ++ es₂ ∧ p.Path es₁ (.ok a) ∧ (f a).Path es₂ r := by
  obtain ⟨es₁, es₂, r', rfl, h₁, h₂⟩ := Prog.Path.of_bind h
  cases r' with
  | ok a => exact .inr ⟨es₁, es₂, a, rfl, h₁, h₂⟩
  | error e =>
    cases h₂
    exact .inl ⟨e, rfl⟩

section
variable {Req' : Type} {Resp' : Req' → Type} {f : Req → Req'} {reply : (q : Req) → Resp' (f q) → Resp q}

theorem Prog.uses_via {P} (h : ∀ q, P (f q)) (p : Prog Req Resp α) : (p.via f reply).Uses P := by
  induction p with
  | ret a => trivial
  | call q next ih => exact ⟨h q, fun r => ih (reply q r)⟩

theorem Prog.Uses.via {P} {p : Prog Req Resp α} (h : p.Uses fun q => P (f q)) : (p.via f reply).Uses P := by
  induction p with
  | ret a => trivial
  | call q next ih => exact ⟨h.1, fun r => ih _ (h.2 _)⟩

theorem Prog.via_bind (p : Prog Req Resp α) (g : α → Prog Req Resp β) :
    (p.bind g).via f reply = (p.via f reply).bind fun a => (g a).via f reply := by
  induction p with
  | ret a => rfl
  | call q next ih => exact congrArg (Prog.call (f q)) (funext fun r => ih (reply q r))

theorem Prog.interp_bind {carryOut : (q : Req) → Prog Req' Resp' (Resp q)} (p : Prog Req Resp α) (f : α → Prog Req Resp β) :
    (p.bind f).interp carryOut = (p.interp carryOut).bind fun a => (f a).interp carryOut := by
  induction p with
  | ret a => rfl
  | call q next ih =>
    calc ((Prog.call q next).bind f).interp carryOut
        = (carryOut q).bind fun r => ((next r).bind f).interp carryOut := rfl
      _ = (carryOut q).bind fun r => ((next r).interp carryOut).bind fun a => (f a).interp carryOut := by rw [funext ih]
      _ = ((carryOut q).bind fun r => (next r).interp carryOut).bind fun a => (f a).interp carryOut := (Prog.bind_assoc _ _ _).symm

theorem Prog.Uses.interp {P : Req → Prop} {P' : Req' → Prop} {carryOut : (q : Req) → Prog Req' Resp' (Resp q)} {p : Prog Req Resp α}
    (h : p.Uses P) (hcarry : ∀ q, P q → (carryOut q).Uses P') : (p.interp carryOut).Uses P' := by
  induction p with
  | ret a => trivial
  | call q next ih => exact (hcarry q h.1).bind fun r => ih r (h.2 r)

/-- A path of the wrapped program is a path of the program, wrapped. -/
theorem Prog.Path.of_via {es' a} (h : (p.via f reply).Path es' a) :
    ∃ es, p.Path es a ∧ ∀ x ∈ es, ∃ r, reply x.1 r = x.2 ∧ ⟨f x.1, r⟩ ∈ es' := by
  induction p generalizing es' with
  | ret _ =>
    cases h
    exact ⟨[], .ret _, nofun⟩
  | call q next ih =>
    cases h with
    | @call _ _ r es' _ h =>
      obtain ⟨es, hpath, hes⟩ := ih (reply q r) h
      refine ⟨⟨q, reply q r⟩ :: es, .call hpath, ?_⟩
      intro x hx
      rcases mem_cons.mp hx with rfl | hx
      · exact ⟨r, rfl, mem_cons_self⟩
      · obtain ⟨r', hr', hmem⟩ := hes x hx
        exact ⟨r', hr', mem_cons_of_mem _ hmem⟩

end

/-- Every request on a path of the program is one of `P`. -/
theorem Prog.Uses.path {P} (h : p.Uses P) {es a} (path : p.Path es a) :
    ∀ x ∈ es, P x.1 := by
  induction path with
  | ret a => exact nofun
  | call path ih =>
    intro x hx
    rcases mem_cons.mp hx with rfl | hx
    · exact h.1
    · exact ih (h.2 _) x hx

/-- A program whose requests are allowed as long as `A` holds, which nobody ends. -/
theorem Safe.of_uses_stable {P : Req → Prop} {A : σ → Prop} (hstable : ∀ s s', A s → D.rely s s' → A s')
    (hallowed : ∀ s q, A s → P q → D.allowed s q) (h : p.Uses P) (hA : A s) : Safe D (fun _ s => A s) p s := by
  induction p generalizing s with
  | ret a => exact Safe.ret fun s' _ hrely => hstable s s' hA hrely
  | call q next ih =>
    refine Safe.call fun s' _ hrely => ?_
    have hA' := hstable s s' hA hrely
    exact ⟨hallowed s' q hA' h.1, fun s'' r _ _ hrely' => ih r (h.2 r) (hstable s' s'' hA' hrely')⟩

/-- A program whose requests are always allowed is safe. -/
theorem Safe.of_uses {P : Req → Prop} (hallowed : ∀ s q, P q → D.allowed s q) (h : p.Uses P) :
    Safe D (fun _ _ => True) p s :=
  Safe.of_uses_stable (A := fun _ => True) (fun _ _ _ _ => trivial) (fun s q _ => hallowed s q) h trivial

/-- What such a program returns, it returns along a path, and each reply on it has left its
trace. -/
theorem Safe.of_path {P : Req → Prop} {T : (q : Req) → Resp q → σ → Prop} (hallowed : ∀ s q, P q → D.allowed s q)
    (htrace : ∀ s q s' r, D.Answers s q s' r → T q r s') (hstable : ∀ q r s s', T q r s → D.rely s s' → T q r s')
    (h : p.Uses P) : Safe D (fun a s => ∃ es, p.Path es a ∧ ∀ x ∈ es, T x.1 x.2 s) p s := by
  induction p generalizing s with
  | ret a => exact Safe.ret fun _ _ _ => ⟨[], .ret a, nofun⟩
  | call q next ih =>
    refine Safe.call fun s' _ _ => ⟨hallowed s' q h.1, fun s'' r hanswer _ _ => ?_⟩
    apply (ih r (h.2 r)).weaken
    rintro a s₃ _ hrely ⟨es, hpath, hes⟩
    refine ⟨⟨q, r⟩ :: es, .call hpath, fun x hx => ?_⟩
    rcases mem_cons.mp hx with rfl | hx
    · exact hstable _ _ _ _ (htrace s' q s'' r hanswer) hrely
    · exact hes x hx

/-! ## Pools of programs -/

/-- The service, the programs in flight, and what the finished ones returned. -/
structure Pool (σ : Type) (Req : Type) (Resp : Req → Type) (κ α : Type) where
  state : σ
  running : List (κ × Prog Req Resp α)
  returned : List (κ × α)

inductive Event (κ φ μ : Type) where
  | start (k : κ)
  /-- The next request of the program at this place is served. -/
  | request (place : Nat) (fate : φ)
  | move (m : μ)
  /-- The process dies, with every program in flight. -/
  | die

/-- Put a program back, or record what it returned. -/
def Pool.put (pool : Pool σ Req Resp κ α) (k : κ) : Prog Req Resp α → Pool σ Req Resp κ α
  | .ret a => { pool with returned := (k, a) :: pool.returned }
  | .call q next => { pool with running := (k, .call q next) :: pool.running }

@[simp] theorem Pool.put_state (pool : Pool σ Req Resp κ α) (k : κ) (p : Prog Req Resp α) : (pool.put k p).state = pool.state := by
  cases p <;> rfl

def poolStep (S : Service σ φ μ Req Resp) (program : κ → Prog Req Resp α) (pool : Pool σ Req Resp κ α) :
    Event κ φ μ → Pool σ Req Resp κ α
  | .start k => pool.put k (program k)
  | .request place fate =>
    match pool.running[place]? with
    | some (k, .call q next) =>
      let (state, reply) := S.request pool.state q fate
      { pool with state := state, running := pool.running.eraseIdx place }.put k (next reply)
    | _ => pool
  | .move m => { pool with state := S.move pool.state m }
  | .die => { pool with running := [] }

/-- An event serves one request, is one move, or leaves the service alone. -/
theorem poolStep_state (S : Service σ φ μ Req Resp) (program : κ → Prog Req Resp α) (pool : Pool σ Req Resp κ α) (e : Event κ φ μ) :
    (poolStep S program pool e).state = pool.state ∨ (∃ q fate, (poolStep S program pool e).state = (S.request pool.state q fate).1) ∨
      ∃ m, (poolStep S program pool e).state = S.move pool.state m := by
  cases e with
  | start k => exact .inl (pool.put_state k (program k))
  | move m => exact .inr (.inr ⟨m, rfl⟩)
  | die => exact .inl rfl
  | request place fate =>
    simp only [poolStep]
    split
    · rename_i k q next hplace
      exact .inr (.inl ⟨q, fate, Pool.put_state _ _ _⟩)
    · exact .inl rfl

/-- What holds of every program in flight, by its job. -/
def Pool.Each (I : κ → Prog Req Resp α → Prop) (pool : Pool σ Req Resp κ α) : Prop := ∀ k p, (k, p) ∈ pool.running → I k p

theorem Pool.Each.put {I} {pool : Pool σ Req Resp κ α} (h : pool.Each I) {k p}
    (hp : I k p) : (pool.put k p).Each I := by
  cases p with
  | ret a => exact h
  | call q next =>
    intro k' p' hmem
    rcases mem_cons.mp hmem with heq | hmem
    · cases heq
      exact hp
    · exact h k' p' hmem

/-- What holds of a program holds of what is left of it. -/
theorem Pool.Each.step {I} (hrest : ∀ k q next r, I k (.call q next) → I k (next r))
    {pool : Pool σ Req Resp κ α} {program} (h : pool.Each I) (e : Event κ φ μ)
    (hstart : ∀ k, e = .start k → I k (program k)) : (poolStep S program pool e).Each I := by
  cases e with
  | start k => exact h.put (hstart k rfl)
  | move m => exact h
  | die => exact nofun
  | request place fate =>
    simp only [poolStep]
    split
    · rename_i k q next hplace
      have hothers : Pool.Each I { pool with state := (S.request pool.state q fate).1, running := pool.running.eraseIdx place } :=
        fun k p hmem => h k p (eraseIdx_subset hmem)
      exact hothers.put (hrest k q next _ (h k _ (mem_of_getElem? hplace)))
    · exact h

/-- What the programs in flight can still request, by their job. -/
def Pool.Uses (P : κ → Req → Prop) (pool : Pool σ Req Resp κ α) : Prop := ∀ k p, (k, p) ∈ pool.running → p.Uses (P k)

theorem Pool.Uses.step {P} {pool : Pool σ Req Resp κ α} {program}
    (h : pool.Uses P) (e : Event κ φ μ) (hstart : ∀ k, e = .start k → (program k).Uses (P k)) :
    (poolStep S program pool e).Uses P :=
  Pool.Each.step (I := fun k p => p.Uses (P k)) (fun _ _ _ r huses => huses.2 r) h e hstart

theorem Pool.uses_of_run {P program} (hprogram : ∀ k, (program k).Uses (P k))
    {ok s₀ h}
    {pool : Pool σ Req Resp κ α} (run : Run (poolStep S program) ok ⟨s₀, [], []⟩ h pool) : pool.Uses P :=
  run.invariant (I := fun _ pool => pool.Uses P) nofun
    fun _ _ e _ _ huses => huses.step e fun k _ => hprogram k

/-- The request that the program at this place makes next. -/
def Pool.next? (pool : Pool σ Req Resp κ α) (place : Nat) : Option Req :=
  match pool.running[place]? with
  | some (_, .call q _) => some q
  | _ => none

/-- What may happen next. -/
def PoolOk (D : Discipline S) (starts : σ → κ → Prop) (pool : Pool σ Req Resp κ α) : Event κ φ μ → Prop
  | .start k => starts pool.state k
  | .request place fate => ∀ q ∈ pool.next? place, D.admits pool.state q fate
  | .move m => D.moves pool.state m
  | .die => True

/-- The invariant of a pool: every program in flight is safe, every result meets its
postcondition now and from now on. -/
structure Pool.Sound (D : Discipline S) (Q : κ → α → σ → Prop) (pool : Pool σ Req Resp κ α) : Prop where
  inv : D.inv pool.state
  running : ∀ k p, (k, p) ∈ pool.running → Safe D (Q k) p pool.state
  returned : ∀ k a, (k, a) ∈ pool.returned → Safe D (Q k) (.ret a : Prog Req Resp α) pool.state

variable {Q : κ → α → σ → Prop} {pool : Pool σ Req Resp κ α}

theorem Pool.Sound.put (h : pool.Sound D Q) {k p} (hp : Safe D (Q k) p pool.state) :
    (pool.put k p).Sound D Q := by
  cases p with
  | ret a =>
    refine ⟨h.inv, h.running, ?_⟩
    intro k' a' hmem
    rcases mem_cons.mp hmem with heq | hmem
    · cases heq
      exact hp
    · exact h.returned k' a' hmem
  | call q next =>
    refine ⟨h.inv, ?_, h.returned⟩
    intro k' p' hmem
    rcases mem_cons.mp hmem with heq | hmem
    · cases heq
      exact hp
    · exact h.running k' p' hmem

/-- The state moves within `rely`, and programs may be dropped. -/
theorem Pool.Sound.evolve (h : pool.Sound D Q) {state} (hinv : D.inv state) (hrely : D.rely pool.state state)
    {running} (hsub : running ⊆ pool.running) :
    Pool.Sound D Q { pool with state := state, running := running } where
  inv := hinv
  running := fun k p hmem => (h.running k p (hsub hmem)).of_rely hrely
  returned := fun k a hmem => (h.returned k a hmem).of_rely hrely

/-- The next request of a program in flight is one it may make. -/
theorem Pool.Sound.allowed (h : pool.Sound D Q) {place q} (hnext : pool.next? place = some q) :
    D.allowed pool.state q := by
  unfold Pool.next? at hnext
  split at hnext
  · rename_i k q' next hplace
    cases hnext
    exact (h.running k _ (mem_of_getElem? hplace) pool.state h.inv (D.rely_refl _)).1
  · cases hnext

section
variable {program : κ → Prog Req Resp α} {starts : σ → κ → Prop}
  (hprogram : ∀ k s, D.inv s → starts s k → Safe D (Q k) (program k) s)
include hprogram

theorem Pool.Sound.step (h : pool.Sound D Q)
    {e} (hok : PoolOk D starts pool e) : (poolStep S program pool e).Sound D Q := by
  cases e with
  | start k => exact h.put (hprogram k pool.state h.inv hok)
  | move m =>
    obtain ⟨hinv, hrely⟩ := D.move_keeps h.inv hok
    exact h.evolve hinv hrely (List.Subset.refl _)
  | die => exact h.evolve h.inv (D.rely_refl _) (nil_subset _)
  | request place fate =>
    simp only [poolStep]
    split
    · rename_i k q next hplace
      have hadmits : D.admits pool.state q fate := hok q (by simp [Pool.next?, hplace])
      have hsafe := h.running k _ (mem_of_getElem? hplace)
      obtain ⟨hallowed, hnext⟩ := hsafe pool.state h.inv (D.rely_refl _)
      obtain ⟨hinv, hrely⟩ := D.request_keeps h.inv hallowed hadmits
      exact (h.evolve hinv hrely eraseIdx_subset).put
        (hnext _ _ ⟨fate, hadmits, rfl⟩ hinv hrely)
    · exact h

/-- From a sound pool on, every pool is sound. -/
theorem Pool.Sound.run {pool₀ : Pool σ Req Resp κ α}
    (hinit : pool₀.Sound D Q) {h}
    (run : Run (poolStep S program) (fun _ pool e => PoolOk D starts pool e) pool₀ h pool) : pool.Sound D Q :=
  run.invariant (I := fun _ pool => pool.Sound D Q) hinit fun _ _ _ _ hok hsound => hsound.step hprogram hok

theorem Pool.sound_of_run {s₀} (hinit : D.inv s₀)
    {h}
    (run : Run (poolStep S program) (fun _ pool e => PoolOk D starts pool e) ⟨s₀, [], []⟩ h pool) : pool.Sound D Q :=
  Pool.Sound.run hprogram
    ⟨hinit, fun _ _ hmem => absurd hmem not_mem_nil, fun _ _ hmem => absurd hmem not_mem_nil⟩ run

/-- **Safe programs can run together**: from a state with the invariant, in every run the
invariant holds and everything returned so far meets its postcondition. -/
theorem Pool.sound {s₀} (hinit : D.inv s₀)
    {h}
    (run : Run (poolStep S program) (fun _ pool e => PoolOk D starts pool e) ⟨s₀, [], []⟩ h pool) :
    D.inv pool.state ∧ ∀ k a, (k, a) ∈ pool.returned → Q k a pool.state := by
  have hsound := Pool.sound_of_run hprogram hinit run
  exact ⟨hsound.inv, fun k a hmem => hsound.returned k a hmem pool.state hsound.inv (D.rely_refl _)⟩

end

/-! ## While a condition holds -/

/-- What the program returns meets `Q` when each of its requests is served in a state with
`P`. -/
def Prog.While (S : Service σ φ μ Req Resp) (P : σ → Prop) (Q : α → Prop) : Prog Req Resp α → Prop
  | .ret a => Q a
  | .call q next => ∀ s fate, P s → (next (S.request s q fate).2).While S P Q

section
variable {P : σ → Prop} {Q R : α → Prop}

theorem Prog.while_true (p : Prog Req Resp α) : p.While S P fun _ => True := by
  induction p with
  | ret a => trivial
  | call q next ih => exact fun s fate _ => ih _

theorem Prog.While.bind {f : α → Prog Req Resp β} {Q : β → Prop} (h : p.While S P R) (hnext : ∀ a, R a → (f a).While S P Q) :
    (p.bind f).While S P Q := by
  induction p with
  | ret a => exact hnext a h
  | call q next ih => exact fun s fate hs => ih _ (h s fate hs)

end

end

end Lib.Interaction

import MatrixMedia.Lib.Interaction

/-!
# Budgets

Some requests are counted: each is one unit of something that should not happen too often.
`Prog.Spends` bounds how many of them a program makes, along the replies that the service can
give. A pool whose jobs come with a budget each spends no more than the jobs that were started
may (`Pool.spent_le`).
-/

namespace Lib.Interaction

section
variable {σ φ μ κ α β : Type} {Req : Type} {Resp : Req → Type} {S : Service σ φ μ Req Resp} {spends : Req → Bool}
  {p : Prog Req Resp α} {n m : Nat}

/-- The program makes at most `n` of the counted requests. -/
def Prog.Spends (S : Service σ φ μ Req Resp) (spends : Req → Bool) : Prog Req Resp α → Nat → Prop
  | .ret _, _ => True
  | .call q next, n => (spends q = true → 0 < n) ∧
      ∀ s fate, (next (S.request s q fate).2).Spends S spends (if spends q then n - 1 else n)

theorem Prog.Spends.mono (h : p.Spends S spends n) (hle : n ≤ m) : p.Spends S spends m := by
  induction p generalizing n m with
  | ret a => trivial
  | call q next ih =>
    refine ⟨fun hq => Nat.lt_of_lt_of_le (h.1 hq) hle, fun s fate => ih _ (h.2 s fate) ?_⟩
    split
    · exact Nat.sub_le_sub_right hle 1
    · exact hle

/-- A program that makes none of the counted requests. -/
theorem Prog.Spends.of_uses (h : p.Uses fun q => spends q = false) : p.Spends S spends n := by
  induction p generalizing n with
  | ret a => trivial
  | call q next ih =>
    refine ⟨fun hq => absurd hq (by simp [h.1]), fun s fate => ?_⟩
    rw [h.1]
    exact ih _ (h.2 _)

/-- A request that is not counted. -/
theorem Prog.Spends.free {q : Req} {next : Resp q → Prog Req Resp α} (hq : spends q = false)
    (h : ∀ s fate, (next (S.request s q fate).2).Spends S spends n) : (Prog.call q next).Spends S spends n := by
  refine ⟨fun hspends => absurd hspends (by simp [hq]), fun s fate => ?_⟩
  rw [hq]
  exact h s fate

/-- A request that may be counted. -/
theorem Prog.Spends.once {q : Req} {next : Resp q → Prog Req Resp α} (h : ∀ r, (next r).Spends S spends n) :
    (Prog.call q next).Spends S spends (n + 1) := by
  refine ⟨fun _ => Nat.succ_pos n, fun s fate => ?_⟩
  split
  · exact h _
  · exact (h _).mono (Nat.le_succ n)

theorem Prog.Spends.bind {f : α → Prog Req Resp β} (h : p.Spends S spends n) (hnext : ∀ a, (f a).Spends S spends m) :
    (p.bind f).Spends S spends (n + m) := by
  induction p generalizing n with
  | ret a => exact (hnext a).mono (Nat.le_add_left m n)
  | call q next ih =>
    refine ⟨fun hq => Nat.add_pos_left (h.1 hq) m, fun s fate => ?_⟩
    refine (ih _ (h.2 s fate)).mono ?_
    split
    · rename_i hq
      have := h.1 hq
      omega
    · exact Nat.le_refl _

/-! ## Pools -/

/-- The programs together spend at most this much. -/
inductive Funded (S : Service σ φ μ Req Resp) (spends : Req → Bool) : List (κ × Prog Req Resp α) → Nat → Prop where
  | nil : Funded S spends [] 0
  | cons {k : κ} {p : Prog Req Resp α} {rest : List (κ × Prog Req Resp α)} {n m : Nat} :
      p.Spends S spends n → Funded S spends rest m → Funded S spends ((k, p) :: rest) (n + m)

/-- A program's own share. -/
theorem Funded.share {running : List (κ × Prog Req Resp α)} {total} (h : Funded S spends running total) {place k}
    (hplace : running[place]? = some (k, p)) :
    ∃ n m, p.Spends S spends n ∧ Funded S spends (running.eraseIdx place) m ∧ n + m = total := by
  induction h generalizing place with
  | nil => cases hplace
  | @cons k' p' rest n m hp hrest ih =>
    cases place with
    | zero =>
      cases hplace
      exact ⟨n, m, hp, hrest, rfl⟩
    | succ place =>
      obtain ⟨n', m', hp', hrest', rfl⟩ := ih hplace
      exact ⟨n', n + m', hp', .cons hp hrest', by omega⟩

theorem Funded.put {pool : Pool σ Req Resp κ α} {total} (h : Funded S spends pool.running total) {k}
    (hp : p.Spends S spends n) : ∃ total', Funded S spends (pool.put k p).running total' ∧ total' ≤ n + total := by
  cases p with
  | ret a => exact ⟨total, h, Nat.le_add_left total n⟩
  | call q next => exact ⟨n + total, .cons hp h, Nat.le_refl _⟩

/-- What the jobs that were started may spend. -/
def budget (cost : κ → Nat) : List (Event κ φ μ) → Nat
  | [] => 0
  | .start k :: h => cost k + budget cost h
  | _ :: h => budget cost h

variable {program : κ → Prog Req Resp α} {cost : κ → Nat} {spent : σ → Nat}

variable (hprogram : ∀ k, (program k).Spends S spends (cost k))
  (hrequest : ∀ s q fate, spent (S.request s q fate).1 ≤ spent s + if spends q then 1 else 0)
  (hmove : ∀ s a, spent (S.move s a) ≤ spent s)
include hprogram hrequest hmove

theorem Funded.step {pool : Pool σ Req Resp κ α} {total limit h}
    (hfunded : Funded S spends pool.running total) (hle : spent pool.state + total ≤ limit + budget cost h) (e : Event κ φ μ) :
    ∃ total', Funded S spends (poolStep S program pool e).running total' ∧
      spent (poolStep S program pool e).state + total' ≤ limit + budget cost (e :: h) := by
  cases e with
  | start k =>
    obtain ⟨total', hfunded', hle'⟩ := hfunded.put (k := k) (hprogram k)
    refine ⟨total', hfunded', ?_⟩
    simp only [poolStep, Pool.put_state, budget]
    omega
  | move a =>
    refine ⟨total, hfunded, ?_⟩
    have := hmove pool.state a
    simp only [poolStep, budget]
    omega
  | die =>
    refine ⟨0, .nil, ?_⟩
    simp only [poolStep, budget]
    omega
  | request place fate =>
    simp only [poolStep, budget]
    split
    · rename_i k q next hplace
      obtain ⟨n, m, hspends, hrest, rfl⟩ := hfunded.share hplace
      have hpool : Funded S spends
          ({ pool with state := (S.request pool.state q fate).1, running := pool.running.eraseIdx place } :
            Pool σ Req Resp κ α).running m := hrest
      obtain ⟨total', hfunded', hle'⟩ := hpool.put (k := k) (hspends.2 pool.state fate)
      refine ⟨total', hfunded', ?_⟩
      have hone := hrequest pool.state q fate
      rw [Pool.put_state]
      show spent (S.request pool.state q fate).1 + total' ≤ limit + budget cost h
      -- a counted request moves one unit from the program's share to what is spent
      cases hq : spends q with
      | true =>
        have hpos := hspends.1 hq
        rw [hq, if_pos rfl] at hone hle'
        omega
      | false =>
        rw [hq, if_neg (by simp)] at hone hle'
        omega
    · exact ⟨total, hfunded, hle⟩

/-- **Nobody spends more than the jobs that were started may.** -/
theorem Pool.spent_le {ok s₀ h} {pool : Pool σ Req Resp κ α} (run : Run (poolStep S program) ok ⟨s₀, [], []⟩ h pool) :
    spent pool.state ≤ spent s₀ + budget cost h := by
  obtain ⟨total, -, hle⟩ := run.invariant
    (I := fun h pool => ∃ total, Funded S spends pool.running total ∧ spent pool.state + total ≤ spent s₀ + budget cost h)
    ⟨0, .nil, Nat.le_refl _⟩ fun _ _ e _ _ ⟨_, hfunded, hle⟩ => Funded.step hprogram hrequest hmove hfunded hle e
  omega

end

end Lib.Interaction

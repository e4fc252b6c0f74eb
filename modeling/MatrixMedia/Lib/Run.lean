import Mathlib.Order.Basic

/-!
# Runs of a step function under a guard

A run feeds inputs to a step function one at a time. `ok h s i` says which input `i` is
admitted at state `s` after the inputs `h` (newest first), so that an assumption about
the environment can look at everything that happened before. Every safety result is
`Run.invariant`: it holds at the start and each admitted input keeps it.
-/

namespace Lib

section
variable {σ ι : Type} {step : σ → ι → σ} {ok ok' : List ι → σ → ι → Prop} {s₀ : σ}

/-- The states reached from `s₀`, each with the inputs that led there, newest first. -/
inductive Run (step : σ → ι → σ) (ok : List ι → σ → ι → Prop) (s₀ : σ) : List ι → σ → Prop where
  | start : Run step ok s₀ [] s₀
  | next {h : List ι} {s : σ} {i : ι} : Run step ok s₀ h s → ok h s i → Run step ok s₀ (i :: h) (step s i)

/-- **The invariant rule.** -/
theorem Run.invariant {I : List ι → σ → Prop} (init : I [] s₀)
    (keep : ∀ h s i, Run step ok s₀ h s → ok h s i → I h s → I (i :: h) (step s i))
    {h : List ι} {s : σ} (run : Run step ok s₀ h s) : I h s := by
  induction run with
  | start => exact init
  | next run admitted ih => exact keep _ _ _ run admitted ih

/-- A run is decided by its inputs. -/
theorem Run.eq_foldr {h : List ι} {s : σ} (run : Run step ok s₀ h s) : h.foldr (fun i s => step s i) s₀ = s := by
  induction run with
  | start => rfl
  | next _ _ ih => rw [List.foldr_cons, ih]

/-- What holds on every run may be added to the guard. -/
theorem Run.strengthen (more : ∀ h s i, Run step ok s₀ h s → ok h s i → ok' h s i) {h s}
    (run : Run step ok s₀ h s) : Run step ok' s₀ h s := by
  induction run with
  | start => exact .start
  | next run admitted ih => exact .next ih (more _ _ _ run admitted)

/-- A run under a stronger guard is a run under a weaker one. -/
theorem Run.mono (weaken : ∀ h s i, ok h s i → ok' h s i) {h s}
    (run : Run step ok s₀ h s) : Run step ok' s₀ h s :=
  run.strengthen fun h s i _ => weaken h s i

/-- These inputs, oldest first, are admitted one after the other. -/
def Follows (step : σ → ι → σ) (ok : List ι → σ → ι → Prop) : List ι → σ → List ι → Prop
  | _, _, [] => True
  | h, s, i :: inputs => ok h s i ∧ Follows step ok (i :: h) (step s i) inputs

instance Follows.instDecidable [∀ h s i, Decidable (ok h s i)] :
    (h : List ι) → (s : σ) → (inputs : List ι) → Decidable (Follows step ok h s inputs)
  | _, _, [] => isTrue trivial
  | h, s, i :: inputs =>
    have := Follows.instDecidable (i :: h) (step s i) inputs
    inferInstanceAs (Decidable (_ ∧ _))

/-- A run goes on with the inputs that are admitted. -/
theorem Run.follow {h s} {inputs : List ι} (run : Run step ok s₀ h s)
    (follows : Follows step ok h s inputs) : Run step ok s₀ (inputs.reverse ++ h) (inputs.foldl step s) := by
  induction inputs generalizing h s with
  | nil => exact run
  | cons i inputs ih =>
    rw [List.reverse_cons, List.append_assoc]
    exact ih (.next run follows.1) follows.2

/-- A loop over `inputs` brings about what one of them does and all keep, if all keep what that one needs. -/
theorem foldl_of_mem {P Q : σ → Prop} {inputs : List ι} {i : ι} (mem : i ∈ inputs) (keepP : ∀ s j, P s → P (step s j))
    (keepQ : ∀ s j, Q s → Q (step s j)) (here : ∀ s, P s → Q (step s i)) {s : σ} (h : P s) : Q (inputs.foldl step s) := by
  induction inputs generalizing s with
  | nil => exact absurd mem List.not_mem_nil
  | cons j inputs ih =>
    rcases List.mem_cons.mp mem with rfl | mem
    · exact List.foldlRecOn inputs step (here s h) fun s hs j _ => keepQ s j hs
    · exact ih mem (keepP s j h)

/-- A run through these inputs, and what it leads to. -/
theorem Run.exists_of_follows {P : σ → Prop} (inputs : List ι) (h : Follows step ok [] s₀ inputs ∧ P (inputs.foldl step s₀)) :
    ∃ h s, Run step ok s₀ h s ∧ P s :=
  ⟨_, _, Run.start.follow h.1, h.2⟩

/-- And what follows where it leads. -/
theorem Run.exists_and_of_follows {P : σ → Prop} {Q : List ι → σ → Prop} (inputs : List ι)
    (h : Follows step ok [] s₀ inputs ∧ P (inputs.foldl step s₀)) (hQ : ∀ h s, Run step ok s₀ h s → P s → Q h s) :
    ∃ h s, Run step ok s₀ h s ∧ Q h s :=
  ⟨_, _, Run.start.follow h.1, hQ _ _ (Run.start.follow h.1) h.2⟩

/-- Without a guard any inputs make a run. -/
theorem Run.free (inputs : List ι) : Run step (fun _ _ _ => True) s₀ inputs.reverse (inputs.foldl step s₀) := by
  have follows : ∀ h s, Follows step (fun _ _ _ => True) h s inputs := by
    induction inputs with
    | nil => exact fun _ _ => trivial
    | cons i inputs ih => exact fun _ _ => ⟨trivial, ih _ _⟩
  simpa using Run.start.follow (follows [] s₀)

end

end Lib

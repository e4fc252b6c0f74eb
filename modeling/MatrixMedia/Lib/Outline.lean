import MatrixMedia.Lib.Interaction
import Mathlib.Data.Multiset.Filter

/-!
# Proof outlines

An outline gives every program in flight a stage, an abstract program counter with what
matters of the values it holds. `stands` ties a program to its stage; `inv` is about the service,
the results so far and the stages in flight, which are a multiset: the order in which programs
stand in the pool never matters. A request changes the state and the stage of the program that
makes it, so an invariant needs one argument for each kind of request.

The guard of the runs is at hand at every event, so an outline can rest on which jobs are
never in flight together.
-/

namespace Lib.Interaction
open Multiset

/-- Beside a job that is in flight alone there is none. -/
theorem eq_zero_of_card_cons {α : Type} {a : α} {notes : Multiset α} (h : (a ::ₘ notes).card ≤ 1) : notes = 0 := by
  rw [card_cons] at h
  exact card_eq_zero.mp (by omega)

section
variable {σ φ μ κ α τ : Type} {Req : Type} {Resp : Req → Type}

/-- Stages for the programs of a pool, and why its events keep an invariant about them. -/
structure Outline (S : Service σ φ μ Req Resp) (program : κ → Prog Req Resp α) (ok : Pool σ Req Resp κ α → Event κ φ μ → Prop)
    (τ : Type) where
  stands : κ → Prog Req Resp α → τ → Prop
  inv : σ → List (κ × α) → Multiset (κ × τ) → Prop
  start : ∀ {pool : Pool σ Req Resp κ α} {k notes}, inv pool.state pool.returned notes →
    notes.map Prod.fst = ofList (pool.running.map Prod.fst) → ok pool (.start k) →
    ∃ t, stands k (program k) t ∧ inv pool.state pool.returned ((k, t) ::ₘ notes)
  request : ∀ {pool : Pool σ Req Resp κ α} {place k q next fate t notes}, stands k (.call q next) t →
    inv pool.state pool.returned ((k, t) ::ₘ notes) → ((k, t) ::ₘ notes).map Prod.fst = ofList (pool.running.map Prod.fst) →
    pool.running[place]? = some (k, .call q next) → ok pool (.request place fate) →
    ∃ t', stands k (next (S.request pool.state q fate).2) t' ∧ inv (S.request pool.state q fate).1 pool.returned ((k, t') ::ₘ notes)
  finish : ∀ {s returned k a t notes}, stands k (.ret a) t → inv s returned ((k, t) ::ₘ notes) → inv s ((k, a) :: returned) notes
  move : ∀ {pool : Pool σ Req Resp κ α} {m notes}, inv pool.state pool.returned notes → ok pool (.move m) →
    inv (S.move pool.state m) pool.returned notes
  die : ∀ {pool : Pool σ Req Resp κ α} {notes}, inv pool.state pool.returned notes → ok pool .die → inv pool.state pool.returned 0

/-- Only jobs of `P` are started. -/
def Event.Starts (P : κ → Prop) : Event κ φ μ → Prop
  | .start k => P k
  | _ => True

instance Event.decidableStarts {P : κ → Prop} [DecidablePred P] : DecidablePred (Event.Starts P : Event κ φ μ → Prop)
  | .start k => inferInstanceAs (Decidable (P k))
  | .request _ _ | .move _ | .die => isTrue trivial

namespace Outline
variable {S : Service σ φ μ Req Resp} {program : κ → Prog Req Resp α} {ok : Pool σ Req Resp κ α → Event κ φ μ → Prop}
  {O : Outline S program ok τ} {pool : Pool σ Req Resp κ α}

/-- The stages of the programs in flight, as the invariant sees them. -/
def stages (notes : List ((κ × Prog Req Resp α) × τ)) : Multiset (κ × τ) := ofList (notes.map fun n => (n.1.1, n.2))

theorem stages_jobs (notes : List ((κ × Prog Req Resp α) × τ)) :
    (stages notes).map Prod.fst = ofList ((notes.map Prod.fst).map Prod.fst) := by
  simp [stages, Function.comp_def]

/-- A stage for each program in flight, with the invariant. -/
def Sound (O : Outline S program ok τ) (pool : Pool σ Req Resp κ α) : Prop :=
  ∃ notes : List ((κ × Prog Req Resp α) × τ), notes.map Prod.fst = pool.running ∧ (∀ n ∈ notes, O.stands n.1.1 n.1.2 n.2) ∧
    O.inv pool.state pool.returned (stages notes)

/-- One program and those that are left without it. -/
theorem stages_eraseIdx {notes : List ((κ × Prog Req Resp α) × τ)} {place n}
    (h : notes[place]? = some n) : stages notes = (n.1.1, n.2) ::ₘ stages (notes.eraseIdx place) := by
  have hperm : notes.Perm (n :: notes.eraseIdx place) := by
    obtain ⟨hlt, hget⟩ := List.getElem?_eq_some_iff.mp h
    rw [← hget]
    exact (List.getElem_cons_eraseIdx_perm hlt).symm
  simpa [stages] using coe_eq_coe.mpr (hperm.map fun n => (n.1.1, n.2))

/-- A program is put back with its stage, or its result is recorded. -/
theorem sound_put {notes : List ((κ × Prog Req Resp α) × τ)} (hnotes : notes.map Prod.fst = pool.running)
    (hat : ∀ n ∈ notes, O.stands n.1.1 n.1.2 n.2) {k p t} (hp : O.stands k p t)
    (hinv : O.inv pool.state pool.returned ((k, t) ::ₘ stages notes)) : O.Sound (pool.put k p) := by
  cases p with
  | ret a => exact ⟨notes, hnotes, hat, O.finish hp hinv⟩
  | call q next =>
    refine ⟨((k, .call q next), t) :: notes, by rw [List.map_cons, hnotes]; rfl, fun n hn => ?_, hinv⟩
    rcases List.mem_cons.mp hn with rfl | hn
    · exact hp
    · exact hat n hn

theorem Sound.step (h : O.Sound pool) {e} (hok : ok pool e) : O.Sound (poolStep S program pool e) := by
  obtain ⟨notes, hnotes, hat, hinv⟩ := h
  have hjobs : (stages notes).map Prod.fst = ofList (pool.running.map Prod.fst) := by rw [stages_jobs, hnotes]
  cases e with
  | start k =>
    obtain ⟨t, hp, hinv⟩ := O.start hinv hjobs hok
    exact sound_put hnotes hat hp hinv
  | move m => exact ⟨notes, hnotes, hat, O.move hinv hok⟩
  | die =>
    have hinv := O.die hinv hok
    exact ⟨[], rfl, nofun, hinv⟩
  | request place fate =>
    simp only [poolStep]
    split
    · rename_i k q next hplace
      have hnote : ∃ t, notes[place]? = some ((k, .call q next), t) := by
        rw [← hnotes, List.getElem?_map] at hplace
        obtain ⟨n, hn, heq⟩ := Option.map_eq_some_iff.mp hplace
        exact ⟨n.2, by rw [hn, ← heq]⟩
      obtain ⟨t, hnote⟩ := hnote
      rw [stages_eraseIdx hnote] at hinv hjobs
      obtain ⟨t', hp, hinv'⟩ := O.request (hat _ (List.mem_of_getElem? hnote)) hinv hjobs hplace hok
      have hrest : (notes.eraseIdx place).map Prod.fst = pool.running.eraseIdx place := by rw [← List.eraseIdx_map, hnotes]
      exact sound_put hrest (fun n hn => hat n (List.eraseIdx_subset hn)) hp hinv'
    · exact ⟨notes, hnotes, hat, hinv⟩

/-- **An outline holds in every run** from a pool where it holds. -/
theorem Sound.run {pool₀} (hinit : O.Sound pool₀) {h}
    (run : Run (poolStep S program) (fun _ pool e => ok pool e) pool₀ h pool) : O.Sound pool :=
  run.invariant (I := fun _ pool => O.Sound pool) hinit fun _ _ _ _ hok hsound => hsound.step hok

/-- Nothing is in flight and nothing was returned yet. -/
theorem sound_start {s} (h : O.inv s [] 0) : O.Sound ⟨s, [], []⟩ := ⟨[], rfl, nofun, h⟩

/-- What the invariant says when nothing is in flight. -/
theorem Sound.quiet (h : O.Sound pool) (hquiet : pool.running = []) : O.inv pool.state pool.returned 0 := by
  obtain ⟨notes, hnotes, -, hinv⟩ := h
  rw [hquiet, List.map_eq_nil_iff] at hnotes
  rwa [hnotes] at hinv

/-- A stage is that of a program in flight. -/
theorem mem_running {running : List (κ × Prog Req Resp α)} {notes : Multiset (κ × τ)}
    (hjobs : notes.map Prod.fst = ofList (running.map Prod.fst)) {n} (hn : n ∈ notes) : ∃ x ∈ running, x.1 = n.1 := by
  have hmem : n.1 ∈ ofList (running.map Prod.fst) := hjobs ▸ mem_map_of_mem Prod.fst hn
  exact List.mem_map.mp (mem_coe.mp hmem)

/-- The stages of the others are those of the other places. -/
theorem mem_others {running : List (κ × Prog Req Resp α)} {place : Nat} {k : κ} {p : Prog Req Resp α} {t : τ} {notes : Multiset (κ × τ)}
    (hplace : running[place]? = some (k, p)) (hjobs : ((k, t) ::ₘ notes).map Prod.fst = ofList (running.map Prod.fst)) {n : κ × τ}
    (hn : n ∈ notes) : ∃ x ∈ running.eraseIdx place, x.1 = n.1 := by
  refine mem_running ?_ hn
  obtain ⟨hlt, hget⟩ := List.getElem?_eq_some_iff.mp hplace
  have hperm := ((List.getElem_cons_eraseIdx_perm hlt).map Prod.fst).symm
  rw [hget] at hperm
  rw [map_cons, coe_eq_coe.mpr hperm, List.map_cons, ← cons_coe] at hjobs
  exact (cons_inj_right k).mp hjobs

end Outline

/-! ## Where a program leads -/

/-- After requests of `P` only, whatever the replies, the program is one of `K`. -/
inductive Prog.Leads (P : Req → Prop) (K : Prog Req Resp α → Prop) : Prog Req Resp α → Prop where
  | here {p : Prog Req Resp α} : K p → Leads P K p
  | call {q : Req} {next : Resp q → Prog Req Resp α} : P q → (∀ r, Leads P K (next r)) → Leads P K (.call q next)

section
variable {P : Req → Prop} {K : Prog Req Resp α → Prop} {β : Type}

theorem Prog.Leads.bind {p : Prog Req Resp β} {f} (h : p.Uses P) (hnext : ∀ b, (f b).Leads P K) :
    (p.bind f).Leads P K := by
  induction p with
  | ret b => exact hnext b
  | call q next ih => exact .call h.1 fun r => ih r (h.2 r)

/-- Where a program leads, it leads with what follows it. -/
theorem Prog.Leads.followed {K' : Prog Req Resp β → Prop} {p : Prog Req Resp α} {f : α → Prog Req Resp β} (h : p.Leads P K)
    (hK : ∀ p, K p → (p.bind f).Leads P K') : (p.bind f).Leads P K' := by
  induction h with
  | here hp => exact hK _ hp
  | call hq _ ih => exact .call hq ih

/-- It makes requests of `P` only and returns one of `Q`. -/
def Prog.Ends (P : Req → Prop) (Q : α → Prop) (p : Prog Req Resp α) : Prop := p.Leads P fun p => ∃ a, p = .ret a ∧ Q a

theorem Prog.Ends.ret {Q a} (h : Q a) : (.ret a : Prog Req Resp α).Ends P Q := .here ⟨a, rfl, h⟩

theorem Prog.Ends.of_ret {Q a} (h : (.ret a : Prog Req Resp α).Ends P Q) : Q a := by
  cases h with
  | here hat =>
    obtain ⟨b, heq, hb⟩ := hat
    cases heq
    exact hb

theorem Prog.Ends.bind {Q : β → Prop} {p : Prog Req Resp β} {f : β → Prog Req Resp α} (h : p.Ends P Q)
    (hnext : ∀ b, Q b → (f b).Leads P K) : (p.bind f).Leads P K := by
  refine Prog.Leads.followed h fun p hp => ?_
  obtain ⟨b, rfl, hb⟩ := hp
  exact hnext b hb

end

end

end Lib.Interaction

import MatrixMedia.Lib.Run

/-!
# Caches whose entries expire

A cache keeps a value and the time it was stored under each key; an entry that is as old as
the time to live is not returned. A read-through cache answers questions about a world that
changes: it returns the entry of the question's key if there is one, and otherwise asks the
world and keeps the answer. `ReadThrough.fresh_of_run` says when its answers are answers to
the question asked: when the questions that share a key are the same question.
-/

namespace Lib

/-- A value and when it was stored. -/
structure Cached (ν : Type) where
  value : ν
  storedAt : Nat
deriving DecidableEq

abbrev Cache (κ ν : Type) : Type := κ → Option (Cached ν)

namespace Cache
variable {κ ν : Type}

def empty : Cache κ ν := fun _ => none

def get (c : Cache κ ν) (ttl now : Nat) (k : κ) : Option ν :=
  (c k).bind fun e => if now < e.storedAt + ttl then some e.value else none

variable [DecidableEq κ]

def insert (c : Cache κ ν) (k : κ) (v : ν) (now : Nat) : Cache κ ν := fun k' => if k' = k then some ⟨v, now⟩ else c k'

/-- An entry is removed: by its owner, or to make room. -/
def invalidate (c : Cache κ ν) (k : κ) : Cache κ ν := fun k' => if k' = k then none else c k'

end Cache

theorem Cache.get_eq_some {κ ν : Type} {c : Cache κ ν} {ttl now : Nat} {k : κ} {v : ν} (h : c.get ttl now k = some v) :
    ∃ e, c k = some e ∧ now < e.storedAt + ttl ∧ e.value = v := by
  obtain ⟨e, he, hvalue⟩ := Option.bind_eq_some_iff.mp h
  split at hvalue
  · rename_i hyoung
    cases hvalue
    exact ⟨e, he, hyoung, rfl⟩
  · cases hvalue

/-- What is found was stored here or was there. -/
theorem Cache.get_insert {κ ν : Type} [DecidableEq κ] {c : Cache κ ν} {ttl now now' : Nat} {k k' : κ} {v v' : ν}
    (h : (c.insert k v now).get ttl now' k' = some v') : v' = v ∨ c.get ttl now' k' = some v' := by
  unfold get insert at h
  split at h
  · obtain ⟨_, hyoung, hvalue⟩ := get_eq_some (c := fun _ => some ⟨v, now⟩) (k := k') h
    cases hyoung
    exact .inl hvalue.2.symm
  · exact .inr h

theorem Cache.get_invalidate {κ ν : Type} [DecidableEq κ] {c : Cache κ ν} {ttl now : Nat} {k k' : κ} {v : ν}
    (h : (c.invalidate k).get ttl now k' = some v) : c.get ttl now k' = some v := by
  unfold get invalidate at h
  split at h
  · cases h
  · exact h

/-! ## Reading through -/

/-- `answer i q` is what the world says about `q` at the instant `i`. -/
structure ReadThrough (κ ν Q I : Type) where
  ttl : Nat
  clock : I → Nat
  key : Q → κ
  answer : I → Q → ν

/-- What was answered to a question, and the instants so far, that of the answer first. -/
structure Answered (ν Q I : Type) where
  question : Q
  value : ν
  instants : List I

namespace ReadThrough
variable {κ ν Q I : Type} [DecidableEq κ] (R : ReadThrough κ ν Q I)

def ask (c : Cache κ ν) (i : I) (q : Q) : ν × Cache κ ν :=
  match c.get R.ttl (R.clock i) (R.key q) with
  | some v => (v, c)
  | none =>
    let v := R.answer i q
    (v, c.insert (R.key q) v (R.clock i))

structure State (κ ν Q I : Type) where
  cache : Cache κ ν
  now : I
  /-- Newest first. -/
  earlier : List I
  answered : List (Answered ν Q I)

inductive Step (κ Q I : Type) where
  /-- Time passes and the world changes. -/
  | pass (i : I)
  | ask (q : Q)
  | drop (k : κ)

def step (s : State κ ν Q I) : Step κ Q I → State κ ν Q I
  | .pass i => { s with now := i, earlier := s.now :: s.earlier }
  | .ask q =>
    let (v, cache) := R.ask s.cache s.now q
    { s with cache := cache, answered := ⟨q, v, s.now :: s.earlier⟩ :: s.answered }
  | .drop k => { s with cache := s.cache.invalidate k }

def start (i : I) : State κ ν Q I := ⟨.empty, i, [], []⟩

/-- The value is what the world said about the question at one of these instants, less than
the time to live before the newest. -/
def Fresh (instants : List I) (q : Q) (v : ν) : Prop :=
  ∃ i ∈ instants, (∀ now ∈ instants.head?, R.clock now < R.clock i + R.ttl) ∧ v = R.answer i q

/-- Questions with one key are one question. -/
def OneQuestion (s : State κ ν Q I) : Step κ Q I → Prop
  | .ask q => ∀ a ∈ s.answered, R.key a.question = R.key q → a.question = q
  | _ => True

variable {R} {s : State κ ν Q I}

/-- Each entry is the answer to a question that was asked, from the instant it was stored at. -/
structure Inv (R : ReadThrough κ ν Q I) (s : State κ ν Q I) : Prop where
  entries : ∀ k e, s.cache k = some e → ∃ a ∈ s.answered, R.key a.question = k ∧
    ∃ i ∈ s.now :: s.earlier, R.clock i = e.storedAt ∧ e.value = R.answer i a.question
  answers : ∀ a ∈ s.answered, R.Fresh a.instants a.question a.value

theorem Inv.ask (h : Inv R s) (hpos : 0 < R.ttl) {q : Q} (hone : R.OneQuestion s (.ask q)) : Inv R (R.step s (.ask q)) := by
  unfold step ReadThrough.ask
  dsimp only
  split
  · rename_i v hget
    obtain ⟨e, he, hyoung, rfl⟩ := Cache.get_eq_some hget
    obtain ⟨a, ha, hkey, i, hi, hclock, hvalue⟩ := h.entries _ e he
    obtain rfl : a.question = q := hone a ha hkey
    refine ⟨fun k e he => ?_, fun b hb => ?_⟩
    · obtain ⟨b, hb, hrest⟩ := h.entries k e he
      exact ⟨b, List.mem_cons_of_mem _ hb, hrest⟩
    · rcases List.mem_cons.mp hb with rfl | hb
      · refine ⟨i, hi, ?_, hvalue⟩
        rintro _ ⟨⟩
        rw [hclock]
        exact hyoung
      · exact h.answers b hb
  · refine ⟨fun k e he => ?_, fun b hb => ?_⟩
    · dsimp only [Cache.insert] at he
      split at he
      · rename_i hkey
        cases he
        exact ⟨_, List.mem_cons_self, hkey.symm, s.now, List.mem_cons_self, rfl, rfl⟩
      · obtain ⟨b, hb, hrest⟩ := h.entries k e he
        exact ⟨b, List.mem_cons_of_mem _ hb, hrest⟩
    · rcases List.mem_cons.mp hb with rfl | hb
      · refine ⟨s.now, List.mem_cons_self, ?_, rfl⟩
        rintro _ ⟨⟩
        exact Nat.lt_add_of_pos_right hpos
      · exact h.answers b hb

theorem Inv.step (h : Inv R s) (hpos : 0 < R.ttl) {e : Step κ Q I} (hone : R.OneQuestion s e) : Inv R (R.step s e) := by
  cases e with
  | pass i =>
    refine ⟨fun k e he => ?_, h.answers⟩
    obtain ⟨a, ha, hkey, i, hi, hrest⟩ := h.entries k e he
    exact ⟨a, ha, hkey, i, List.mem_cons_of_mem _ hi, hrest⟩
  | ask q => exact h.ask hpos hone
  | drop k =>
    refine ⟨fun k' e he => ?_, h.answers⟩
    dsimp only [ReadThrough.step, Cache.invalidate] at he
    split at he
    · cases he
    · exact h.entries k' e he

/-- **Answers are fresh**, when questions with one key are one question. -/
theorem fresh_of_run (hpos : 0 < R.ttl) {i : I} {steps : List (Step κ Q I)}
    (run : Run R.step (fun _ s e => R.OneQuestion s e) (start i) steps s) :
    ∀ a ∈ s.answered, R.Fresh a.instants a.question a.value := by
  have hinv : Inv R s := run.invariant (I := fun _ s => Inv R s)
    ⟨fun _ _ he => (by cases he), fun _ ha => absurd ha List.not_mem_nil⟩ fun _ _ _ _ hone h => h.step hpos hone
  exact hinv.answers

end ReadThrough

end Lib

import MatrixMedia.Api.Guards
import MatrixMedia.Lib.Interaction

/-!
# Handlers

What the handlers of the API have in common: a program that returns a value or an `MMError`,
and the ways it stops early. Each comes with its rule for every judgement about programs.
-/

namespace MatrixMedia.Api
open Lib.Interaction

section
variable {Req : Type} {Resp : Req → Type} {α β : Type}

def refuse (code : ErrorCode) (message : String) : Prog Req Resp (Except MMError α) := .ret (.error (.api code message))

/-- The `?` on a call, with the error it is turned into. -/
def orError (wrap : String → MMError) (r : Except String α) (next : α → Prog Req Resp (Except MMError β)) :
    Prog Req Resp (Except MMError β) :=
  match r with
  | .ok a => next a
  | .error e => .ret (.error (wrap e))

/-- The `?` on a database call. -/
def orDatabase : Except String α → (α → Prog Req Resp (Except MMError β)) → Prog Req Resp (Except MMError β) := orError .database

/-- A check that makes no call. -/
def orRefuse (r : Except MMError Unit) (next : Prog Req Resp (Except MMError β)) : Prog Req Resp (Except MMError β) :=
  match r with
  | .ok () => next
  | .error e => .ret (.error e)

/-! ## Rules -/

variable {P : Req → Prop} {wrap : String → MMError} {r : Except String α} {next : α → Prog Req Resp (Except MMError β)}

theorem uses_orError (h : ∀ a, (next a).Uses P) : (orError wrap r next).Uses P := by
  cases r with
  | ok a => exact h a
  | error e => trivial

theorem uses_orRefuse {r} {next : Prog Req Resp (Except MMError β)} (h : next.Uses P) :
    (orRefuse r next).Uses P := by
  cases r with
  | ok a => exact h
  | error e => trivial

variable {σ μ : Type}

theorem safe_orError {S : Service σ CallFate μ Req Resp} {D : Discipline S} {R : β → σ → Prop} {s : σ}
    (h : ∀ a, r = .ok a → Safe D (Returns R) (next a) s) : Safe D (Returns R) (orError wrap r next) s := by
  cases r with
  | ok a => exact h a rfl
  | error e => exact Safe.error _

/-- The reply is the service's, or an error. -/
theorem while_orError {S : Service σ CallFate μ Req Resp} {P : σ → Prop} {Q : Except MMError β → Prop} {fate : CallFate}
    (herror : ∀ e, Q (.error e)) (h : ∀ a, r = .ok a → (next a).While S P Q) :
    (orError wrap (fate.answer r) next).While S P Q := by
  cases fate with
  | served =>
    cases r with
    | ok a => exact h a rfl
    | error e => exact herror _
  | failed | unconfirmed => exact herror _

end

end MatrixMedia.Api

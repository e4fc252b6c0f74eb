import MatrixMedia.Lib.Text
import Mathlib.Data.Rat.Defs

/-!
# JSON values

The value type of a JSON document, with equality decided structurally. Whole numbers and
fractional numbers are kept apart, as a parser keeps them apart; the members of an object
come in key order.
-/

namespace Lib

inductive Json where
  | null
  | bool (b : Bool)
  | int (n : Int)
  | float (x : Rat)
  | str (s : String)
  | arr (items : List Json)
  | obj (members : List (String × Json))

namespace Json

mutual

def beq : Json → Json → Bool
  | .null, .null => true
  | .bool a, .bool b => a == b
  | .int a, .int b => a == b
  | .float a, .float b => a == b
  | .str a, .str b => a == b
  | .arr a, .arr b => beqItems a b
  | .obj a, .obj b => beqMembers a b
  | _, _ => false

def beqItems : List Json → List Json → Bool
  | [], [] => true
  | a :: as, b :: bs => a.beq b && beqItems as bs
  | _, _ => false

def beqMembers : List (String × Json) → List (String × Json) → Bool
  | [], [] => true
  | (k, a) :: as, (k', b) :: bs => k == k' && a.beq b && beqMembers as bs
  | _, _ => false

end

mutual

theorem eq_of_beq : (a b : Json) → a.beq b = true → a = b
  | .null, .null, _ => rfl
  | .bool a, .bool b, h => by simp only [beq, beq_iff_eq] at h; rw [h]
  | .int a, .int b, h => by simp only [beq, beq_iff_eq] at h; rw [h]
  | .float a, .float b, h => by simp only [beq, beq_iff_eq] at h; rw [h]
  | .str a, .str b, h => by simp only [beq, beq_iff_eq] at h; rw [h]
  | .arr a, .arr b, h => by rw [items_eq_of_beq a b (by simpa only [beq] using h)]
  | .obj a, .obj b, h => by rw [members_eq_of_beq a b (by simpa only [beq] using h)]

theorem items_eq_of_beq : (a b : List Json) → beqItems a b = true → a = b
  | [], [], _ => rfl
  | a :: as, b :: bs, h => by
    rw [beqItems, Bool.and_eq_true] at h
    rw [eq_of_beq a b h.1, items_eq_of_beq as bs h.2]

theorem members_eq_of_beq : (a b : List (String × Json)) → beqMembers a b = true → a = b
  | [], [], _ => rfl
  | (k, a) :: as, (k', b) :: bs, h => by
    rw [beqMembers, Bool.and_eq_true, Bool.and_eq_true, beq_iff_eq] at h
    rw [h.1.1, eq_of_beq a b h.1.2, members_eq_of_beq as bs h.2]

end

mutual

theorem beq_self : (a : Json) → a.beq a = true
  | .null => rfl
  | .bool _ => by simp [beq]
  | .int _ => by simp [beq]
  | .float _ => by simp [beq]
  | .str _ => by simp [beq]
  | .arr items => by rw [beq]; exact beqItems_self items
  | .obj members => by rw [beq]; exact beqMembers_self members

theorem beqItems_self : (as : List Json) → beqItems as as = true
  | [] => rfl
  | a :: as => by rw [beqItems, beq_self a, beqItems_self as]; rfl

theorem beqMembers_self : (as : List (String × Json)) → beqMembers as as = true
  | [] => rfl
  | (k, a) :: as => by simp [beqMembers, beq_self a, beqMembers_self as]

end

instance : DecidableEq Json := fun a b =>
  decidable_of_iff (a.beq b = true) ⟨eq_of_beq a b, fun h => h ▸ beq_self a⟩

/-- `Value::as_str`. -/
def asStr : Json → Option String
  | .str s => some s
  | _ => none

/-- `Value::as_array`. -/
def asArray : Json → Option (List Json)
  | .arr items => some items
  | _ => none

/-- `Value::as_bool`. -/
def asBool : Json → Option Bool
  | .bool b => some b
  | _ => none

/-- `Value::as_i64`. -/
def asI64 : Json → Option Int
  | .int n => if -2 ^ 63 ≤ n ∧ n < 2 ^ 63 then some n else none
  | _ => none

/-- `Value::as_f64`, by exact value. -/
def asF64 : Json → Option Rat
  | .int n => some n
  | .float x => some x
  | _ => none

/-! ## Text -/

abbrev quote : Char := '\x22'

/-- How a serializer writes one character of a string. -/
def escapeChar (c : Char) : List Char :=
  if c = quote then ['\x5c', quote]
  else if c = '\x5c' then ['\x5c', '\x5c']
  else if c = '\n' then ['\x5c', 'n']
  else if c = '\r' then ['\x5c', 'r']
  else if c = '\t' then ['\x5c', 't']
  else if c = '\x08' then ['\x5c', 'b']
  else if c = '\x0c' then ['\x5c', 'f']
  else if c.toNat < 32 then ['\x5c', 'u', '0', '0', (c.toNat / 16).digitChar, (c.toNat % 16).digitChar]
  else [c]

def quoted (s : String) : List Char := quote :: (s.toList.flatMap escapeChar ++ [quote])

mutual

/-- `Value::to_string`; `printFloat` is how fractional numbers are printed. -/
def render (printFloat : Rat → String) : Json → List Char
  | .null => "null".toList
  | .bool b => (toString b).toList
  | .int n => (toString n).toList
  | .float x => (printFloat x).toList
  | .str s => quoted s
  | .arr items => '[' :: (renderItems printFloat items ++ [']'])
  | .obj members => '\x7b' :: (renderMembers printFloat members ++ ['\x7d'])

def renderItems (printFloat : Rat → String) : List Json → List Char
  | [] => []
  | [a] => render printFloat a
  | a :: as => render printFloat a ++ ',' :: renderItems printFloat as

def renderMembers (printFloat : Rat → String) : List (String × Json) → List Char
  | [] => []
  | [(k, a)] => quoted k ++ ':' :: render printFloat a
  | (k, a) :: as => quoted k ++ ':' :: (render printFloat a ++ ',' :: renderMembers printFloat as)

end

/-- It is written as it is. -/
def Plain (s : String) : Prop := ∀ c ∈ s.toList, escapeChar c = [c] ∧ c ≠ quote

instance decidablePlain (s : String) : Decidable (Plain s) :=
  List.decidableBAll (fun c => escapeChar c = [c] ∧ c ≠ quote) s.toList

/-- A plain text is what stands between the quotes. -/
theorem trimMatches_quoted {s : String} (h : Plain s) : Text.trimMatches quote (quoted s) = s.toList := by
  have hescape : s.toList.flatMap escapeChar = s.toList := by
    calc s.toList.flatMap escapeChar = s.toList.flatMap (fun c => [c]) := List.flatMap_congr fun c hc => (h c hc).1
      _ = s.toList := List.flatMap_singleton' _
  rw [quoted, hescape]
  exact Text.trimMatches_between fun c hc => (h c hc).2

end Json

end Lib

import Mathlib.Data.List.Basic

/-!
# Base64 for URLs, without padding

Three bytes are four digits, and one or two bytes at the end are two or three. `decode` is as
lenient as Go's `RawURLEncoding`: line breaks are skipped, and the bits of the last digit that
belong to no byte are not looked at.
-/

namespace Lib.Base64

def digit (n : Nat) : Char :=
  if n < 26 then Char.ofNat (65 + n)
  else if n < 52 then Char.ofNat (71 + n)
  else if n < 62 then Char.ofNat (n - 4)
  else if n = 62 then '-' else '_'

def value (c : Char) : Option Nat :=
  if c.isUpper then some (c.toNat - 65)
  else if c.isLower then some (c.toNat - 71)
  else if c.isDigit then some (c.toNat + 4)
  else if c = '-' then some 62
  else if c = '_' then some 63
  else none

def digits : List UInt8 → List Nat
  | a :: b :: c :: rest =>
    a.toNat / 4 :: (a.toNat % 4 * 16 + b.toNat / 16) :: (b.toNat % 16 * 4 + c.toNat / 64) :: c.toNat % 64 :: digits rest
  | [a, b] => [a.toNat / 4, a.toNat % 4 * 16 + b.toNat / 16, b.toNat % 16 * 4]
  | [a] => [a.toNat / 4, a.toNat % 4 * 16]
  | [] => []

def bytes : List Nat → Option (List UInt8)
  | w :: x :: y :: z :: rest =>
    (bytes rest).map fun bs => .ofNat (w * 4 + x / 16) :: .ofNat (x % 16 * 16 + y / 4) :: .ofNat (y % 4 * 64 + z) :: bs
  | [w, x, y] => some [.ofNat (w * 4 + x / 16), .ofNat (x % 16 * 16 + y / 4)]
  | [w, x] => some [.ofNat (w * 4 + x / 16)]
  | [_] => none
  | [] => some []

def encode (bs : List UInt8) : List Char := (digits bs).map digit

def decode (text : List Char) : Option (List UInt8) :=
  ((text.filter fun c => c ≠ '\r' ∧ c ≠ '\n').mapM value).bind bytes

/-- What is said of a digit is looked up. -/
theorem digit_spec : ∀ n < 64, value (digit n) = some n ∧ digit n ≠ '\r' ∧ digit n ≠ '\n' ∧ digit n ≠ '.' := by decide

theorem digits_lt : (bs : List UInt8) → ∀ n ∈ digits bs, n < 64
  | [] => nofun
  | [a] => by
    have ha := a.toNat_lt
    simp only [digits, List.forall_mem_cons]
    exact ⟨by omega, by omega, nofun⟩
  | [a, b] => by
    have ha := a.toNat_lt
    have hb := b.toNat_lt
    simp only [digits, List.forall_mem_cons]
    exact ⟨by omega, by omega, by omega, nofun⟩
  | a :: b :: c :: rest => by
    have ha := a.toNat_lt
    have hb := b.toNat_lt
    have hc := c.toNat_lt
    simp only [digits, List.forall_mem_cons]
    exact ⟨by omega, by omega, by omega, by omega, digits_lt rest⟩

/-- A byte from its parts. -/
theorem byte_eq {a : UInt8} {n : Nat} (h : n = a.toNat) : UInt8.ofNat n = a := by rw [h, UInt8.ofNat_toNat]

theorem bytes_digits : (bs : List UInt8) → bytes (digits bs) = some bs
  | [] => rfl
  | [a] => by
    simp only [digits, bytes]
    rw [byte_eq (a := a) (by omega)]
  | [a, b] => by
    have hb := b.toNat_lt
    simp only [digits, bytes]
    rw [byte_eq (a := a) (by omega), byte_eq (a := b) (by omega)]
  | a :: b :: c :: rest => by
    have hb := b.toNat_lt
    have hc := c.toNat_lt
    simp only [digits, bytes, bytes_digits rest, Option.map_some]
    rw [byte_eq (a := a) (by omega), byte_eq (a := b) (by omega), byte_eq (a := c) (by omega)]

theorem mapM_value_digit {ns : List Nat} (h : ∀ n ∈ ns, n < 64) : (ns.map digit).mapM value = some ns := by
  induction ns with
  | nil => rfl
  | cons n ns ih =>
    obtain ⟨hn, hns⟩ := List.forall_mem_cons.mp h
    rw [List.map_cons, List.mapM_cons, (digit_spec n hn).1, ih hns]
    rfl

/-- **What was encoded is decoded.** -/
theorem decode_encode (bs : List UInt8) : decode (encode bs) = some bs := by
  have hkeep : (encode bs).filter (fun c => c ≠ '\r' ∧ c ≠ '\n') = encode bs := by
    refine List.filter_eq_self.mpr fun c hc => ?_
    obtain ⟨n, hn, rfl⟩ := List.mem_map.mp hc
    obtain ⟨-, hr, hline, -⟩ := digit_spec n (digits_lt bs n hn)
    exact decide_eq_true ⟨hr, hline⟩
  rw [decode, hkeep, encode, mapM_value_digit (digits_lt bs)]
  exact bytes_digits bs

theorem dot_notMem_encode (bs : List UInt8) : '.' ∉ encode bs := by
  intro hdot
  obtain ⟨n, hn, heq⟩ := List.mem_map.mp hdot
  exact (digit_spec n (digits_lt bs n hn)).2.2.2 heq

end Lib.Base64

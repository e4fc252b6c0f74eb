import Mathlib.Algebra.Order.Ring.Int
import Mathlib.Data.List.Basic

/-!
# Text: prefixes, decimal numbers and separated keys

The string operations the services build their identifiers with: stripping a prefix,
printing a number in decimal and reading a `u32` back, and joining fields with a
separator. `stripPrefix_eq_some` and `parseU32_toString` are the round trips;
`append_cons_inj` splits a joined text at its first separator and
`append_cons_inj_right` at its last.
-/

namespace Lib.Text
open List

/-- Rust's `str::strip_prefix`. -/
def stripPrefix (p s : String) : Option String :=
  if p.toList.isPrefixOf s.toList then some (String.ofList (s.toList.drop p.toList.length)) else none

theorem stripPrefix_eq_some {p s r : String} : stripPrefix p s = some r ↔ s = p ++ r := by
  unfold stripPrefix
  constructor
  · intro h
    split at h
    · rename_i hp
      obtain ⟨t, ht⟩ := isPrefixOf_iff_prefix.mp hp
      have hr : r = String.ofList t := by
        rw [← ht, drop_left] at h
        exact (Option.some.inj h).symm
      apply String.toList_inj.mp
      rw [hr, String.toList_append, String.toList_ofList, ht]
    · cases h
  · rintro rfl
    simp [String.toList_append]

/-- Rust's `str::starts_with`. -/
def startsWith (p s : String) : Bool := p.toList.isPrefixOf s.toList

theorem startsWith_iff {p s : String} : startsWith p s = true ↔ ∃ r, s = p ++ r := by
  rw [startsWith, isPrefixOf_iff_prefix]
  constructor
  · rintro ⟨t, ht⟩
    exact ⟨String.ofList t, String.toList_inj.mp (by rw [String.toList_append, String.toList_ofList, ht])⟩
  · rintro ⟨r, rfl⟩
    exact ⟨r.toList, (String.toList_append).symm⟩

theorem startsWith_append (p s : String) : startsWith p (p ++ s) = true := startsWith_iff.mpr ⟨s, rfl⟩

/-- `str::split_once`: the text before and after the first separator. -/
def splitOnce (sep : Char) (s : String) : Option (String × String) :=
  match s.toList.dropWhile (· != sep) with
  | [] => none
  | _ :: rest => some (String.ofList (s.toList.takeWhile (· != sep)), String.ofList rest)

theorem splitOnce_eq_some {sep : Char} {s a b : String} (h : splitOnce sep s = some (a, b)) :
    s.toList = a.toList ++ sep :: b.toList := by
  unfold splitOnce at h
  split at h
  · cases h
  · rename_i c rest hdrop
    cases h
    have hsep : c = sep := by
      have hne : s.toList.dropWhile (· != sep) ≠ [] := by
        rw [hdrop]
        exact cons_ne_nil _ _
      have hhead := head_dropWhile_not (· != sep) hne
      simpa [hdrop] using hhead
    subst hsep
    rw [String.toList_ofList, String.toList_ofList, ← hdrop]
    exact takeWhile_append_dropWhile.symm

/-- Rust's `str::parse::<u32>().ok()`: an optional `+`, at least one ASCII digit and
nothing else, and a value that fits. -/
def parseU32 (s : String) : Option UInt32 :=
  let digits := match s.toList with
    | '+' :: rest => rest
    | cs => cs
  if digits ≠ [] ∧ digits.all Char.isDigit = true ∧ Nat.ofDigitChars 10 digits 0 < 2 ^ 32 then
    some (UInt32.ofNat (Nat.ofDigitChars 10 digits 0))
  else none

theorem isDigit_of_mem_repr {n : Nat} {c : Char} (h : c ∈ n.repr.toList) : c.isDigit = true := by
  rw [Nat.toList_repr] at h
  exact Nat.isDigit_of_mem_toDigits (by decide) (by decide) h

theorem repr_injective {m n : Nat} (h : m.repr = n.repr) : m = n := by
  have hd : Nat.toDigits 10 m = Nat.toDigits 10 n := by rw [← Nat.toList_repr, ← Nat.toList_repr, h]
  rw [← Nat.ofDigitChars_ten_toDigits (n := m), hd, Nat.ofDigitChars_ten_toDigits]

/-- A printed `u32` reads back as itself. -/
theorem parseU32_repr (n : UInt32) : parseU32 n.toNat.repr = some n := by
  have hdigit : ∀ c ∈ Nat.toDigits 10 n.toNat, c.isDigit = true := fun c hc =>
    Nat.isDigit_of_mem_toDigits (by decide) (by decide) hc
  have hshape : (match Nat.toDigits 10 n.toNat with
      | '+' :: rest => rest
      | cs => cs) = Nat.toDigits 10 n.toNat := by
    split
    · rename_i rest hrest
      have := hdigit '+' (by rw [hrest]; exact mem_cons_self)
      exact absurd this (by decide)
    · rfl
  unfold parseU32
  simp only [Nat.toList_repr, hshape, Nat.ofDigitChars_ten_toDigits]
  rw [if_pos ⟨Nat.toDigits_ne_nil, all_eq_true.mpr hdigit, n.toNat_lt⟩]
  simp

section Separated

variable {α : Type} {sep : α}

/-- Two joined texts split at their first separator. -/
theorem append_cons_inj {a b c d : List α} (ha : sep ∉ a) (hb : sep ∉ b)
    (h : a ++ sep :: c = b ++ sep :: d) : a = b ∧ c = d := by
  induction a generalizing b with
  | nil =>
    cases b with
    | nil => exact ⟨rfl, (List.cons.inj h).2⟩
    | cons y b =>
      have hy : sep = y := (List.cons.inj h).1
      exact absurd (hy ▸ mem_cons_self) hb
  | cons x a ih =>
    cases b with
    | nil =>
      have hx : x = sep := (List.cons.inj h).1
      exact absurd (hx ▸ mem_cons_self) ha
    | cons y b =>
      obtain ⟨hxy, htail⟩ := List.cons.inj h
      obtain ⟨hab, hcd⟩ := ih (fun m => ha (mem_cons_of_mem _ m)) (fun m => hb (mem_cons_of_mem _ m)) htail
      exact ⟨by rw [hxy, hab], hcd⟩

/-- Two joined texts split at their last separator. -/
theorem append_cons_inj_right {a b c d : List α} (hc : sep ∉ c) (hd : sep ∉ d)
    (h : a ++ sep :: c = b ++ sep :: d) : a = b ∧ c = d := by
  have hrev : c.reverse ++ sep :: a.reverse = d.reverse ++ sep :: b.reverse := by
    simpa using congrArg List.reverse h
  obtain ⟨hcd, hab⟩ := append_cons_inj (by simpa using hc) (by simpa using hd) hrev
  exact ⟨reverse_injective hab, reverse_injective hcd⟩

end Separated

theorem notMem_repr_of_not_isDigit {c : Char} (hc : c.isDigit = false) (n : Nat) : c ∉ n.repr.toList := by
  intro h
  rw [isDigit_of_mem_repr h] at hc
  cases hc

/-- A decimal integer holds only digits and a sign. -/
theorem colon_notMem_toString (c : Int) : ':' ∉ (toString c).toList := by
  cases c with
  | ofNat n => exact notMem_repr_of_not_isDigit (by decide) n
  | negSucc n =>
    have htext : (toString (Int.negSucc n)).toList = '-' :: (n + 1).repr.toList := by
      show ("-" ++ (n + 1).repr).toList = _
      rw [String.toList_append]
      rfl
    rw [htext]
    intro hmem
    rcases mem_cons.mp hmem with h | h
    · exact absurd h (by decide)
    · exact notMem_repr_of_not_isDigit (by decide) _ h

/-- Decimal printing distinguishes integers. -/
theorem toString_int_injective {a b : Int} (h : toString a = toString b) : a = b := by
  have minus : ∀ n m : Nat, n.repr ≠ "-" ++ m.repr := by
    intro n m he
    have : '-' ∈ n.repr.toList := by rw [he, String.toList_append]; exact mem_append_left _ (by decide)
    exact notMem_repr_of_not_isDigit (by decide) n this
  cases a with
  | ofNat m =>
    cases b with
    | ofNat n => exact congrArg Int.ofNat (repr_injective h)
    | negSucc n => exact absurd h (minus m (n + 1))
  | negSucc m =>
    cases b with
    | ofNat n => exact absurd h.symm (minus n (m + 1))
    | negSucc n =>
      have hs : ("-" ++ (m + 1).repr).toList = ("-" ++ (n + 1).repr).toList := congrArg String.toList h
      rw [String.toList_append, String.toList_append] at hs
      have := repr_injective (String.toList_inj.mp (append_cancel_left hs))
      rw [Nat.succ.inj this]

/-- Rust's `str::trim_matches` for one character. -/
def trimMatches (c : Char) (s : List Char) : List Char :=
  ((s.dropWhile (· = c)).reverse.dropWhile (· = c)).reverse

theorem dropWhile_eq_of_notMem {c : Char} {s : List Char} (h : ∀ a ∈ s, a ≠ c) : s.dropWhile (· = c) = s := by
  cases s with
  | nil => rfl
  | cons a s => exact dropWhile_cons_of_neg (by simpa using h a mem_cons_self)

/-- What stands between two of the characters and has none itself. -/
theorem trimMatches_between {c : Char} {s : List Char} (h : ∀ a ∈ s, a ≠ c) : trimMatches c (c :: (s ++ [c])) = s := by
  have hreverse : ∀ a ∈ s.reverse, a ≠ c := fun a ha => h a (mem_reverse.mp ha)
  unfold trimMatches
  cases s with
  | nil => simp
  | cons a s =>
    have ha : a ≠ c := h a mem_cons_self
    have hfront : (c :: (a :: s ++ [c])).dropWhile (· = c) = a :: s ++ [c] := by simp [ha]
    have hback : (a :: s ++ [c]).reverse = c :: (a :: s).reverse := by simp
    rw [hfront, hback, dropWhile_cons_of_pos (by simp), dropWhile_eq_of_notMem hreverse, reverse_reverse]

end Lib.Text

import MatrixMedia.Lib.Json
import Mathlib.Algebra.Field.Rat

/-!
# Reading JSON

The grammar of RFC 8259, as Go's `encoding/json` reads it: white space between tokens, `\u` escapes
in surrogate pairs with U+FFFD for half of one, no leading zeros. The fuel is the length of the
text. `parse_render` is the round trip for objects of texts and whole numbers.
-/

namespace Lib.Json
open List

/-! ## The reader -/

def isSpace (c : Char) : Bool := c = ' ' || c = '\t' || c = '\n' || c = '\r'

def skipSpace (cs : List Char) : List Char := cs.dropWhile isSpace

def hexValue (c : Char) : Option Nat :=
  if c.isDigit then some (c.toNat - 48)
  else if 'a' ≤ c ∧ c ≤ 'f' then some (c.toNat - 87)
  else if 'A' ≤ c ∧ c ≤ 'F' then some (c.toNat - 55)
  else none

/-- One item of a string: a character, or the number of a `\u` escape. -/
inductive Item where
  | char (c : Char)
  | escaped (n : Nat)

def readEscape : Char → Option Char
  | '\x22' => some '\x22'
  | '\x5c' => some '\x5c'
  | '/' => some '/'
  | 'b' => some '\x08'
  | 'f' => some '\x0c'
  | 'n' => some '\n'
  | 'r' => some '\r'
  | 't' => some '\t'
  | _ => none

/-- The items up to the closing quote, and what is behind it. -/
def readItems : List Char → Option (List Item × List Char)
  | [] => none
  | '\x5c' :: 'u' :: a :: b :: c :: d :: rest =>
    match hexValue a, hexValue b, hexValue c, hexValue d with
    | some a, some b, some c, some d => (readItems rest).map fun r => (.escaped (((a * 16 + b) * 16 + c) * 16 + d) :: r.1, r.2)
    | _, _, _, _ => none
  | '\x5c' :: e :: rest =>
    match readEscape e with
    | some c => (readItems rest).map fun r => (.char c :: r.1, r.2)
    | none => none
  | c :: rest =>
    if c = quote then some ([], rest)
    else if c = '\x5c' ∨ c.toNat < 32 then none
    else (readItems rest).map fun r => (.char c :: r.1, r.2)

def isSurrogate (n : Nat) : Bool := 0xD800 ≤ n && n < 0xE000

/-- The character of an escape that stands alone. -/
def escapedChar (n : Nat) : Char := if isSurrogate n then '�' else Char.ofNat n

def joinItems : List Item → List Char
  | [] => []
  | .char c :: items => c :: joinItems items
  | .escaped n :: .escaped m :: items =>
    if 0xD800 ≤ n ∧ n < 0xDC00 ∧ 0xDC00 ≤ m ∧ m < 0xE000 then
      Char.ofNat (0x10000 + (n - 0xD800) * 0x400 + (m - 0xDC00)) :: joinItems items
    else escapedChar n :: joinItems (.escaped m :: items)
  | .escaped n :: items => escapedChar n :: joinItems items

/-- A string, from behind its opening quote. -/
def readString (cs : List Char) : Option (String × List Char) :=
  (readItems cs).map fun r => (String.ofList (joinItems r.1), r.2)

/-- Digits, at least one. -/
def readDigits (cs : List Char) : Option (List Char × List Char) :=
  if cs.takeWhile Char.isDigit = [] then none else some (cs.takeWhile Char.isDigit, cs.dropWhile Char.isDigit)

/-- What follows a point, if there is one. -/
def readFraction : List Char → Option (Option (List Char) × List Char)
  | '.' :: cs => (readDigits cs).map fun r => (some r.1, r.2)
  | cs => some (none, cs)

def readExponent : List Char → Option (Option Int × List Char)
  | c :: cs =>
    if c = 'e' ∨ c = 'E' then
      let (negative, cs) := match cs with
        | '-' :: cs => (true, cs)
        | '+' :: cs => (false, cs)
        | cs => (false, cs)
      (readDigits cs).map fun r =>
        let n := Nat.ofDigitChars 10 r.1 0
        (some (if negative then -n else n), r.2)
    else some (none, c :: cs)
  | [] => some (none, [])

def signed (negative : Bool) (n : Nat) : Int := if negative then -n else n

/-- A number behind its sign. -/
def readUnsigned (negative : Bool) (cs : List Char) : Option (Json × List Char) :=
  (readDigits cs).bind fun (whole, cs) =>
    if whole.head? = some '0' ∧ whole ≠ ['0'] then none
    else
      (readFraction cs).bind fun (fraction, cs) =>
      (readExponent cs).map fun (exponent, cs) =>
        match fraction, exponent with
        | none, none => (.int (signed negative (Nat.ofDigitChars 10 whole 0)), cs)
        | _, _ =>
          let places := fraction.getD []
          let scaled := signed negative (Nat.ofDigitChars 10 (whole ++ places) 0)
          (.float (scaled * (10 : Rat) ^ (exponent.getD 0 - places.length)), cs)

def readNumber : List Char → Option (Json × List Char)
  | '-' :: cs => readUnsigned true cs
  | cs => readUnsigned false cs

def expect (text : String) (v : Json) (cs : List Char) : Option (Json × List Char) :=
  if text.toList.isPrefixOf cs then some (v, cs.drop text.toList.length) else none

mutual

def readValue : Nat → List Char → Option (Json × List Char)
  | 0, _ => none
  | fuel + 1, cs =>
    match skipSpace cs with
    | [] => none
    | c :: cs =>
      if c = quote then (readString cs).map fun r => (.str r.1, r.2)
      else if c = '[' then
        match skipSpace cs with
        | ']' :: cs => some (.arr [], cs)
        | cs => (readArray fuel cs).map fun r => (.arr r.1, r.2)
      else if c = '\x7b' then
        match skipSpace cs with
        | '\x7d' :: cs => some (.obj [], cs)
        | cs => (readObject fuel cs).map fun r => (.obj r.1, r.2)
      else if c = 'n' then expect "null" .null (c :: cs)
      else if c = 't' then expect "true" (.bool true) (c :: cs)
      else if c = 'f' then expect "false" (.bool false) (c :: cs)
      else readNumber (c :: cs)

/-- The values of an array, one at least, and its closing bracket. -/
def readArray : Nat → List Char → Option (List Json × List Char)
  | 0, _ => none
  | fuel + 1, cs =>
    (readValue fuel cs).bind fun (v, cs) =>
      match skipSpace cs with
      | ',' :: cs => (readArray fuel cs).map fun r => (v :: r.1, r.2)
      | ']' :: cs => some ([v], cs)
      | _ => none

/-- The members of an object, one at least, and its closing brace. -/
def readObject : Nat → List Char → Option (List (String × Json) × List Char)
  | 0, _ => none
  | fuel + 1, cs =>
    match skipSpace cs with
    | '\x22' :: cs =>
      (readString cs).bind fun (key, cs) =>
        match skipSpace cs with
        | ':' :: cs =>
          (readValue fuel cs).bind fun (v, cs) =>
            match skipSpace cs with
            | ',' :: cs => (readObject fuel cs).map fun r => ((key, v) :: r.1, r.2)
            | '\x7d' :: cs => some ([(key, v)], cs)
            | _ => none
        | _ => none
    | _ => none

end

/-- One value, and nothing but white space behind it. -/
def parse (text : String) : Option Json :=
  (readValue text.toList.length text.toList).bind fun (v, rest) => if skipSpace rest = [] then some v else none

/-! ## Strings -/

def itemOf (c : Char) : Item := if (escapeChar c).length = 6 then .escaped c.toNat else .char c

theorem hexValue_digitChar : ∀ n < 16, hexValue n.digitChar = some n := by decide

theorem readItems_plain {c : Char} (hquote : c ≠ quote) (hback : c ≠ '\x5c') (hcontrol : ¬c.toNat < 32) (rest : List Char) :
    readItems (c :: rest) = (readItems rest).map fun r => (.char c :: r.1, r.2) := by
  rw [readItems.eq_def]
  split
  · rename_i heq
    cases heq
  · rename_i heq
    exact absurd (List.cons.inj heq).1 hback
  · rename_i heq
    exact absurd (List.cons.inj heq).1 hback
  · rename_i heq
    obtain ⟨rfl, rfl⟩ := List.cons.inj heq
    rw [if_neg hquote, if_neg (not_or.mpr ⟨hback, hcontrol⟩)]

theorem readItems_escapeChar (c : Char) (rest : List Char) :
    readItems (escapeChar c ++ rest) = (readItems rest).map fun r => (itemOf c :: r.1, r.2) := by
  unfold itemOf escapeChar
  iterate 7
    split
    · subst_vars
      rfl
  split
  · rename_i hcontrol
    have hhigh := hexValue_digitChar (c.toNat / 16) (by omega)
    have hlow := hexValue_digitChar (c.toNat % 16) (by omega)
    have hzero := hexValue_digitChar 0 (by decide)
    have hsum : ((0 * 16 + 0) * 16 + c.toNat / 16) * 16 + c.toNat % 16 = c.toNat := by omega
    simp only [cons_append, nil_append]
    rw [readItems]
    simp only [hhigh, hlow, show hexValue '0' = some 0 from hzero, hsum]
    rfl
  · rename_i hquote hback _ _ _ _ _ hcontrol
    exact readItems_plain hquote hback hcontrol rest

theorem readItems_escaped (s rest : List Char) : readItems (s.flatMap escapeChar ++ quote :: rest) = some (s.map itemOf, rest) := by
  induction s with
  | nil => rfl
  | cons c s ih =>
    rw [flatMap_cons, append_assoc, readItems_escapeChar, ih]
    rfl

/-- Only control characters are escaped by number. -/
theorem itemOf_cases (c : Char) : itemOf c = .char c ∨ itemOf c = .escaped c.toNat ∧ c.toNat < 32 := by
  unfold itemOf escapeChar
  iterate 7
    split
    · exact .inl (if_neg (by decide))
  split
  · rename_i hcontrol
    exact .inr ⟨if_pos rfl, hcontrol⟩
  · exact .inl (if_neg (by simp))

theorem escapedChar_control {c : Char} (h : c.toNat < 32) : escapedChar c.toNat = c := by
  have hsurrogate : isSurrogate c.toNat = false := by
    unfold isSurrogate
    rw [Bool.and_eq_false_iff]
    exact .inl (decide_eq_false (by omega))
  rw [escapedChar, hsurrogate]
  exact Char.ofNat_toNat c

theorem joinItems_itemOf (s : List Char) : joinItems (s.map itemOf) = s := by
  induction s with
  | nil => rfl
  | cons c s ih =>
    rw [map_cons]
    rcases itemOf_cases c with hchar | ⟨hescaped, hcontrol⟩
    · rw [hchar, joinItems, ih]
    · rw [hescaped, joinItems.eq_def]
      split
      · rename_i heq
        cases heq
      · rename_i heq
        cases heq
      · rename_i n m items heq
        obtain ⟨hn, hitems⟩ := List.cons.inj heq
        cases hn
        rw [if_neg (by omega), ← hitems, ih, escapedChar_control hcontrol]
      · rename_i n items _ heq
        obtain ⟨hn, hitems⟩ := List.cons.inj heq
        cases hn
        rw [← hitems, ih, escapedChar_control hcontrol]

theorem readString_quoted (s : String) (rest : List Char) : readString (s.toList.flatMap escapeChar ++ quote :: rest) = some (s, rest) := by
  rw [readString, readItems_escaped, Option.map_some, joinItems_itemOf, String.ofList_toList]

/-! ## Numbers -/

/-- What follows a value in a document. -/
def Ends (rest : List Char) : Prop := ∀ c ∈ rest.head?, c = ',' ∨ c = ']' ∨ c = '\x7d'

theorem Ends.span {rest : List Char} (h : Ends rest) : rest.takeWhile Char.isDigit = [] ∧ rest.dropWhile Char.isDigit = rest := by
  cases rest with
  | nil => exact ⟨rfl, rfl⟩
  | cons c rest =>
    have hdigit : c.isDigit = false := by
      rcases h c rfl with rfl | rfl | rfl <;> decide
    exact ⟨takeWhile_cons_of_neg (by rw [hdigit]; decide), dropWhile_cons_of_neg (by rw [hdigit]; decide)⟩

theorem Ends.whole {rest} (h : Ends rest) : readFraction rest = some (none, rest) ∧ readExponent rest = some (none, rest) := by
  cases rest with
  | nil => exact ⟨rfl, rfl⟩
  | cons c rest => rcases h c rfl with rfl | rfl | rfl <;> exact ⟨rfl, rfl⟩

/-- A printed number starts with a zero only if it is zero. -/
theorem head_toDigits (n : Nat) : (Nat.toDigits 10 n).head? = some '0' → Nat.toDigits 10 n = ['0'] := by
  induction n using Nat.strongRecOn with
  | ind n ih =>
    intro hhead
    by_cases hlt : n < 10
    · rw [Nat.toDigits_of_lt_base hlt] at hhead ⊢
      rw [Option.some.inj hhead]
    · have hstep := Nat.toDigits_of_base_le (b := 10) (by decide) (Nat.le_of_not_lt hlt)
      rw [hstep, head?_append_of_ne_nil _ Nat.toDigits_ne_nil] at hhead
      have hzero := ih (n / 10) (Nat.div_lt_self (by omega) (by decide)) hhead
      have hvalue : n / 10 = 0 := by
        rw [← Nat.ofDigitChars_ten_toDigits (n := n / 10), hzero]
        rfl
      omega

theorem readUnsigned_repr (negative : Bool) (n : Nat) {rest} (hrest : Ends rest) :
    readUnsigned negative (Nat.toDigits 10 n ++ rest) = some (.int (signed negative n), rest) := by
  obtain ⟨htake, hdrop⟩ := hrest.span
  obtain ⟨hfraction, hexponent⟩ := hrest.whole
  have hdigits : ∀ c ∈ Nat.toDigits 10 n, c.isDigit = true := fun c hc => Nat.isDigit_of_mem_toDigits (by decide) (by decide) hc
  have hread : readDigits (Nat.toDigits 10 n ++ rest) = some (Nat.toDigits 10 n, rest) := by
    unfold readDigits
    rw [takeWhile_append_of_pos hdigits, dropWhile_append_of_pos hdigits, htake, hdrop, append_nil, if_neg Nat.toDigits_ne_nil]
  have hleading : ¬((Nat.toDigits 10 n).head? = some '0' ∧ Nat.toDigits 10 n ≠ ['0']) := fun h => h.2 (head_toDigits n h.1)
  unfold readUnsigned
  simp only [hread, Option.bind_some, if_neg hleading, hfraction, hexponent, Option.map_some, Nat.ofDigitChars_ten_toDigits]

/-- How a printed number starts. -/
theorem toString_head (n : Int) : ∃ c cs, (toString n).toList = c :: cs ∧ (c.isDigit = true ∨ c = '-') := by
  cases n with
  | ofNat n =>
    have htext : (toString (Int.ofNat n)).toList = Nat.toDigits 10 n := Nat.toList_repr
    rw [htext]
    cases hdigits : Nat.toDigits 10 n with
    | nil => exact absurd hdigits Nat.toDigits_ne_nil
    | cons c cs => exact ⟨c, cs, rfl, .inl (Nat.isDigit_of_mem_toDigits (b := 10) (n := n) (by decide) (by decide) (by rw [hdigits]; exact mem_cons_self))⟩
  | negSucc n =>
    refine ⟨'-', (n + 1).repr.toList, ?_, .inr rfl⟩
    show ("-" ++ (n + 1).repr).toList = _
    rw [String.toList_append]
    rfl

theorem readNumber_toString (n : Int) {rest} (hrest : Ends rest) : readNumber ((toString n).toList ++ rest) = some (.int n, rest) := by
  cases n with
  | ofNat n =>
    have htext : (toString (Int.ofNat n)).toList = Nat.toDigits 10 n := Nat.toList_repr
    have hunsigned := readUnsigned_repr false n hrest
    rw [htext]
    cases hdigits : Nat.toDigits 10 n with
    | nil => exact absurd hdigits Nat.toDigits_ne_nil
    | cons c cs =>
      rw [hdigits] at hunsigned
      have hdigit : c.isDigit = true :=
        Nat.isDigit_of_mem_toDigits (b := 10) (n := n) (by decide) (by decide) (by rw [hdigits]; exact mem_cons_self)
      rw [cons_append, readNumber.eq_def]
      split
      · rename_i heq
        rw [(List.cons.inj heq).1] at hdigit
        exact absurd hdigit (by decide)
      · exact hunsigned
  | negSucc n =>
    have htext : (toString (Int.negSucc n)).toList = '-' :: Nat.toDigits 10 (n + 1) := by
      show ("-" ++ (n + 1).repr).toList = _
      rw [String.toList_append, Nat.toList_repr]
      rfl
    rw [htext]
    exact readUnsigned_repr true (n + 1) hrest

/-! ## Objects -/

/-- A text or a whole number. -/
def flat : Json → Bool
  | .str _ | .int _ => true
  | _ => false

theorem skipSpace_cons {c} (h : isSpace c = false) (cs : List Char) : skipSpace (c :: cs) = c :: cs :=
  dropWhile_cons_of_neg (by rw [h]; decide)

theorem readValue_number {c : Char} (h : c.isDigit = true ∨ c = '-') (fuel : Nat) (cs : List Char) :
    readValue (fuel + 1) (c :: cs) = readNumber (c :: cs) := by
  have hne : ∀ d, d.isDigit = false → d ≠ '-' → c ≠ d := by
    rintro d hdigit hminus rfl
    rcases h with h | h
    · rw [hdigit] at h
      cases h
    · exact hminus h
  have hspace : isSpace c = false := by
    unfold isSpace
    simp only [Bool.or_eq_false_iff, decide_eq_false_iff_not]
    exact ⟨⟨⟨hne _ rfl (by decide), hne _ rfl (by decide)⟩, hne _ rfl (by decide)⟩, hne _ rfl (by decide)⟩
  rw [readValue, skipSpace_cons hspace]
  simp only [show c ≠ quote from hne _ rfl (by decide), hne '[' rfl (by decide), hne '\x7b' rfl (by decide), hne 'n' rfl (by decide),
    hne 't' rfl (by decide), hne 'f' rfl (by decide), if_false]

section
variable (printFloat : Rat → String)

theorem readValue_flat {v : Json} (h : v.flat = true) {rest} (hrest : Ends rest) (fuel : Nat) :
    readValue (fuel + 1) (render printFloat v ++ rest) = some (v, rest) := by
  cases v with
  | int n =>
    obtain ⟨c, cs, htext, hc⟩ := toString_head n
    have hnumber := readNumber_toString n hrest
    show readValue (fuel + 1) ((toString n).toList ++ rest) = _
    rw [htext, cons_append] at hnumber ⊢
    rw [readValue_number hc, hnumber]
  | str s =>
    show readValue (fuel + 1) (quote :: (s.toList.flatMap escapeChar ++ [quote]) ++ rest) = _
    rw [cons_append, append_assoc, readValue, skipSpace_cons (by decide)]
    simp only [if_true]
    rw [singleton_append, readString_quoted]
    rfl
  | null | bool | float | arr | obj => cases h

/-- One member, up to what follows its value. -/
theorem readObject_member {k v fuel text rest} (h : readValue fuel text = some (v, rest)) :
    readObject (fuel + 1) (quoted k ++ ':' :: text) =
      match skipSpace rest with
      | ',' :: cs => (readObject fuel cs).map fun r => ((k, v) :: r.1, r.2)
      | '\x7d' :: cs => some ([(k, v)], cs)
      | _ => none := by
  have hkey : quoted k ++ ':' :: text = '\x22' :: (k.toList.flatMap escapeChar ++ quote :: ':' :: text) := by
    rw [quoted, cons_append, append_assoc]
    rfl
  rw [hkey, readObject, skipSpace_cons (by decide)]
  simp only [readString_quoted, Option.bind_some, skipSpace_cons (show isSpace ':' = false by decide), h]

theorem ends_cons {c} (h : c = ',' ∨ c = ']' ∨ c = '\x7d') (rest : List Char) : Ends (c :: rest) := by
  intro x hx
  cases hx
  exact h

/-- The fuel is for the members, one each, and one for a value. -/
theorem readObject_render : (members : List (String × Json)) → members ≠ [] → (∀ m ∈ members, m.2.flat = true) →
    ∀ rest fuel, members.length ≤ fuel →
    readObject (fuel + 1) (renderMembers printFloat members ++ '\x7d' :: rest) = some (members, rest)
  | [], hne, _, _, _, _ => absurd rfl hne
  | _ :: _, _, _, _, 0, hfuel => absurd hfuel (Nat.not_succ_le_zero _)
  | [(k, a)], _, hflat, rest, fuel + 1, _ => by
    have htext : renderMembers printFloat [(k, a)] = quoted k ++ ':' :: render printFloat a := rfl
    have hvalue := readValue_flat printFloat (hflat _ mem_cons_self) (ends_cons (c := '\x7d') (.inr (.inr rfl)) rest) fuel
    rw [htext, append_assoc, cons_append, readObject_member hvalue]
    simp only [skipSpace_cons (show isSpace '\x7d' = false by decide)]
  | (k, a) :: b :: as, _, hflat, rest, fuel + 1, hfuel => by
    have htext : renderMembers printFloat ((k, a) :: b :: as) =
        quoted k ++ ':' :: (render printFloat a ++ ',' :: renderMembers printFloat (b :: as)) := rfl
    have hvalue := readValue_flat printFloat (hflat _ mem_cons_self)
      (ends_cons (c := ',') (.inl rfl) (renderMembers printFloat (b :: as) ++ '\x7d' :: rest)) fuel
    have hrest := readObject_render (b :: as) (cons_ne_nil _ _) (fun m hm => hflat m (mem_cons_of_mem _ hm)) rest fuel
      (Nat.le_of_succ_le_succ hfuel)
    rw [htext, append_assoc, cons_append, append_assoc, cons_append, readObject_member hvalue]
    simp only [skipSpace_cons (show isSpace ',' = false by decide), hrest, Option.map_some]

theorem length_le_renderMembers : (members : List (String × Json)) → members.length ≤ (renderMembers printFloat members).length
  | [] => Nat.zero_le _
  | [(k, a)] => by
    simp only [renderMembers, length_append, length_cons, length_nil]
    omega
  | (k, a) :: b :: as => by
    have := length_le_renderMembers (b :: as)
    simp only [renderMembers, length_append, length_cons] at this ⊢
    omega

/-- **What was written is read back.** -/
theorem parse_render {members} (hne : members ≠ []) (hflat : ∀ m ∈ members, m.2.flat = true) :
    parse (String.ofList (render printFloat (.obj members))) = some (.obj members) := by
  have hread := readObject_render printFloat members hne hflat [] _ (length_le_renderMembers printFloat members)
  have htext : render printFloat (.obj members) = '\x7b' :: (renderMembers printFloat members ++ ['\x7d']) := rfl
  obtain ⟨cs, hmembers⟩ : ∃ cs, renderMembers printFloat members = quote :: cs := by
    match members with
    | [] => exact absurd rfl hne
    | [_] => exact ⟨_, rfl⟩
    | _ :: _ :: _ => exact ⟨_, rfl⟩
  rw [parse, String.toList_ofList, htext, length_cons, length_append, length_singleton, readValue, skipSpace_cons (by decide)]
  rw [hmembers] at hread ⊢
  rw [cons_append] at hread ⊢
  simp only [show '\x7b' ≠ quote by decide, show '\x7b' ≠ '[' by decide, if_false, if_true, skipSpace_cons (show isSpace quote = false by decide)]
  split
  · rename_i heq
    exact absurd (List.cons.inj heq).1 (by decide)
  · rw [hread]
    rfl

end

end Lib.Json

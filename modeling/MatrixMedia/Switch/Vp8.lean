import Mathlib.Data.List.Basic

/-!
# VP8 payload descriptors (`services/mm-switch/vp8util.go`)

`ExtractVP8Payload` adds up how long the descriptor before the VP8 data of an RTP payload is and compares at the
end. `afterDescriptor` reads the descriptor field by field, as RFC 7741 lays it out, and fails where one is cut off.
-/

namespace MatrixMedia.Switch
open List

abbrev Bytes := List (BitVec 8)

/-- `IsVP8StartOfPartition`. -/
def isVP8StartOfPartition : Bytes → Bool
  | [] => false
  | firstByte :: _ => firstByte &&& 0x10 != 0

/-- How far `ExtractVP8Payload` moves over a PictureID. -/
def pictureIdLength : Bytes → Nat
  | [] => 0
  | id :: _ => if id &&& 0x80 != 0 then 2 else 1

/-- And over the extension, given what follows the first byte. -/
def extensionLength : Bytes → Nat
  | [] => 0
  | extByte :: rest =>
    1 + (if extByte &&& 0x80 != 0 then pictureIdLength rest else 0) + (extByte &&& 0x40 != 0).toNat +
      (extByte &&& 0x20 != 0 || extByte &&& 0x10 != 0).toNat

/-- `ExtractVP8Payload`; `none` is `nil`. -/
def extractVP8Payload : Bytes → Option Bytes
  | [] => none
  | firstByte :: rest =>
    let idx := if firstByte &&& 0x80 != 0 then extensionLength rest else 0
    if idx ≥ rest.length then none else some (rest.drop idx)

/-- `IsVP8Keyframe`. -/
def isVP8Keyframe (payload : Bytes) : Bool :=
  isVP8StartOfPartition payload &&
    match extractVP8Payload payload with
    | none => false
    | some data => data.headD 0 &&& 0x01 == 0

/-! ## The RFC's layout -/

/-- What follows `n` bytes that have to be there. -/
def skip (n : Nat) (r : Bytes) : Option Bytes := if n ≤ r.length then some (r.drop n) else none

/-- Seven bits, or fifteen behind a set M bit. -/
def afterPictureId : Bytes → Option Bytes
  | [] => none
  | id :: r => skip id[7].toNat r

/-- What follows the descriptor, if it is complete: X announces the extension, and I, L, and T or K its fields. -/
def afterDescriptor : Bytes → Option Bytes
  | [] => none
  | first :: r =>
    if first[7] then
      match r with
      | [] => none
      | flags :: r => (if flags[7] then afterPictureId r else some r).bind fun r =>
        (skip flags[6].toNat r).bind (skip (flags[5] || flags[4]).toNat)
    else some r

/-- The first payload of a keyframe, by the RFC: S is set, PID is 0, and so is the lowest bit after the descriptor. -/
def StartsKeyframe (payload : Bytes) : Prop :=
  ∃ first ∈ payload.head?, ∃ b data, afterDescriptor payload = some (b :: data) ∧ first[4] = true ∧ first.extractLsb' 0 3 = 0 ∧ b[0] = false

/-- The masks of the source are single bits. -/
theorem mask_eq_bit : ∀ b : BitVec 8, (b &&& 0x80 != 0) = b[7] ∧ (b &&& 0x40 != 0) = b[6] ∧ (b &&& 0x20 != 0) = b[5] ∧
    (b &&& 0x10 != 0) = b[4] ∧ (b &&& 0x01 == 0) = !b[0] := by
  decide +kernel

variable {payload data r : Bytes} {m n : Nat}

theorem skip_eq_some : skip n r = some data ↔ n ≤ r.length ∧ r.drop n = data := by
  unfold skip
  split
  · simp [*]
  · simp only [reduceCtorEq, false_iff]
    exact fun h => absurd h.1 ‹_›

theorem skip_skip : (skip m r).bind (skip n) = skip (m + n) r := by
  ext data
  simp only [Option.bind_eq_some_iff, skip_eq_some]
  constructor
  · rintro ⟨_, ⟨hm, rfl⟩, hn, rfl⟩
    rw [length_drop] at hn
    exact ⟨by omega, by rw [drop_drop]⟩
  · rintro ⟨hmn, rfl⟩
    exact ⟨_, ⟨by omega, rfl⟩, by rw [length_drop]; omega, by rw [drop_drop]⟩

theorem afterPictureId_cons (id : BitVec 8) : afterPictureId (id :: r) = skip (pictureIdLength (id :: r)) (id :: r) := by
  simp only [afterPictureId, pictureIdLength, mask_eq_bit, skip]
  cases id[7] <;> simp

theorem filter_skip : (skip n r).filter (· ≠ []) = if n ≥ r.length then none else some (r.drop n) := by
  unfold skip
  rcases Nat.lt_trichotomy n r.length with hlt | rfl | hgt
  · rw [if_pos (by omega), if_neg (by omega), Option.filter_some, if_pos (by simpa using hlt)]
  · simp
  · rw [if_neg (by omega), if_pos (by omega), Option.filter_none]

/-- Field by field or by their lengths, the same bytes are left, if any are. -/
theorem extractVP8Payload_eq (payload : Bytes) : extractVP8Payload payload = (afterDescriptor payload).filter (· ≠ []) := by
  have extended (flags : BitVec 8) (r : Bytes) (n : Nat) : (if 1 + n ≥ (flags :: r).length then none else some ((flags :: r).drop (1 + n))) =
      (skip n r).filter (· ≠ []) := by
    rw [filter_skip, Nat.add_comm]
    simp
  rcases payload with - | ⟨first, r⟩
  · rfl
  simp only [extractVP8Payload, afterDescriptor, mask_eq_bit]
  cases first[7] with
  | false => exact filter_skip.symm
  | true =>
    rcases r with - | ⟨flags, r⟩
    · rfl
    simp only [extensionLength, mask_eq_bit, if_true, Nat.add_assoc, skip_skip, extended]
    cases flags[7] with
    | false => simp only [Bool.false_eq_true, if_false, Nat.zero_add, Option.bind_some]
    | true =>
      rcases r with - | ⟨id, r⟩
      · exact filter_skip.trans (if_pos (Nat.zero_le _))
      · simp only [afterPictureId_cons, if_true, skip_skip]

/-- The source asks for no more than the start of some partition. -/
theorem isVP8Keyframe_iff : isVP8Keyframe payload = true ↔
    ∃ first ∈ payload.head?, ∃ b data, afterDescriptor payload = some (b :: data) ∧ first[4] = true ∧ b[0] = false := by
  rcases payload with - | ⟨first, r⟩
  · simp [isVP8Keyframe, isVP8StartOfPartition]
  rw [isVP8Keyframe, extractVP8Payload_eq]
  rcases afterDescriptor (first :: r) with - | - | ⟨b, data⟩
  · simp
  · show (isVP8StartOfPartition (first :: r) && false) = true ↔ _
    simp
  · show (isVP8StartOfPartition (first :: r) && (b &&& 0x01 == 0)) = true ↔ _
    simp only [isVP8StartOfPartition, mask_eq_bit]
    simp

/-- **The keyframe test is the RFC's unless a later partition starts with an even byte**, and of every payload the
bytes after the descriptor are returned. -/
theorem vp8_follows_rfc (payload : Bytes) :
    ((isVP8Keyframe payload = true ↔ StartsKeyframe payload) ↔ ∀ first ∈ payload.head?, ∀ b data,
      afterDescriptor payload = some (b :: data) → first[4] = true → b[0] = false → first.extractLsb' 0 3 = 0) ∧
    extractVP8Payload payload = (afterDescriptor payload).filter (· ≠ []) := by
  refine ⟨⟨fun same first hfirst b data hdata hs hb => ?_, fun only => isVP8Keyframe_iff.trans ⟨?_, ?_⟩⟩, extractVP8Payload_eq payload⟩
  · obtain ⟨first', hfirst', -, -, -, -, hpid, -⟩ := same.mp (isVP8Keyframe_iff.mpr ⟨first, hfirst, b, data, hdata, hs, hb⟩)
    cases Option.some.inj (hfirst.symm.trans hfirst')
    exact hpid
  · rintro ⟨first, hfirst, b, data, hdata, hs, hb⟩
    exact ⟨first, hfirst, b, data, hdata, hs, only first hfirst b data hdata hs hb, hb⟩
  · rintro ⟨first, hfirst, b, data, hdata, hs, -, hb⟩
    exact ⟨first, hfirst, b, data, hdata, hs, hb⟩

/-- The start of a frame's second partition passes for a keyframe. -/
theorem later_partition_is_keyframe : isVP8Keyframe [0x11, 0x00] = true ∧ ¬StartsKeyframe [0x11, 0x00] := by
  refine ⟨by decide, ?_⟩
  rintro ⟨_, ⟨⟩, b, data, -, -, hpid, -⟩
  exact absurd hpid (by decide)

end MatrixMedia.Switch

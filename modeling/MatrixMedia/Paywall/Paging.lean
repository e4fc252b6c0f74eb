import MatrixMedia.Lib.Pages
import MatrixMedia.Paywall.Handlers

/-!
# The pages of a room's recordings

A client reads the recordings of a room page by page, each from before the last one of the page it
has. The cursor is a time of creation, so of two recordings of one time the second is lost when a page
ends with the first (`twin_lost`). `recordings_paged_once`: that is when recordings are lost, and the
only time.
-/

namespace MatrixMedia.Paywall
open Lib Lib.Chrono Lib.Interaction Api ContentState List

namespace ContentState

/-- The rows of a page of `list_room_recordings`, and whether there are more. -/
def roomPage (s : ContentState) (roomId : Int) (limit : Option Int) (beforeId : Option String) : List (String × Recording) × Bool :=
  let rows := s.roomRecordings roomId (clampLimit limit + 1) beforeId
  (rows.take (clampLimit limit), decide (clampLimit limit < rows.length))

/-- Reading on until there are no more. -/
def walk (s : ContentState) (roomId : Int) : Nat → (Nat → Option Int) → Option String → Option (List (String × Recording))
  | 0, _, _ => none
  | n + 1, limits, before =>
    let (page, more) := s.roomPage roomId (limits 0) before
    if more then page.getLast?.bind fun last => (s.walk roomId n (fun i => limits (i + 1)) (some last.1)).map (page ++ ·)
    else some page

/-- The ready, visible recordings of a room. -/
def visible (s : ContentState) (roomId : Int) : List (String × Recording) :=
  s.recordings.toList.filter fun x => x.2.roomId = roomId ∧ x.2.status = .ready ∧ x.2.hidden = false

/-- How many rows the first pages have, if all are full: those up to the `k`th. -/
def pagesEnd : (Nat → Option Int) → Nat → Nat
  | limits, 0 => clampLimit (limits 0)
  | limits, k + 1 => clampLimit (limits 0) + pagesEnd (fun i => limits (i + 1)) k

/-- Two neighbours of one time of creation, the second behind the first `j` rows. -/
def Split (rows : List (String × Recording)) (j : Nat) : Prop :=
  ∃ x ∈ rows[j - 1]?, ∃ y ∈ rows[j]?, x.2.createdAt = y.2.createdAt

instance (rows : List (String × Recording)) (j : Nat) : Decidable (Split rows j) :=
  inferInstanceAs (Decidable (∃ x ∈ rows[j - 1]?, _))

end ContentState

section
variable {s : ContentState} {roomId : Int} {rows : List (String × Recording)} {n j : Nat} {before : Option String}

/-- Not older. -/
def NotOlder (x y : String × Recording) : Prop := y.2.createdAt ≤ x.2.createdAt

instance : DecidableRel NotOlder := fun x y => inferInstanceAs (Decidable (y.2.createdAt ≤ x.2.createdAt))

instance : IsTrans (String × Recording) NotOlder := ⟨fun _ _ _ h h' => Int.le_trans h' h⟩

instance : Std.Total NotOlder := ⟨fun x y => Int.le_total y.2.createdAt x.2.createdAt⟩

def Newer (x y : String × Recording) : Prop := y.2.createdAt < x.2.createdAt

instance : DecidableRel Newer := fun x y => inferInstanceAs (Decidable (y.2.createdAt < x.2.createdAt))

open ContentState in
theorem sortRecordings_sorted : (sortRecordings rows).Pairwise NotOlder := pairwise_insertionSort NotOlder rows

open ContentState in
/-- The rows before a recording of the table. -/
theorem roomRecordings_before {last} (hlast : s.recordings[last.1]? = some last.2) (k : Nat) :
    s.roomRecordings roomId k (some last.1) = ((sortRecordings (s.visible roomId)).filter (Newer last ·)).take k := by
  have hrows : s.recordings.toList.filter (fun x => x.2.roomId = roomId ∧ x.2.status = .ready ∧ x.2.hidden = false ∧
      ∀ before ∈ some last.1, ∃ b ∈ s.recordings[before]?, x.2.createdAt < b.createdAt) = (s.visible roomId).filter (Newer last ·) := by
    rw [visible, filter_filter]
    refine filter_congr fun x _ => Bool.eq_iff_iff.mpr ?_
    simp only [hlast, decide_eq_true_eq, Bool.and_eq_true, Option.mem_def, Option.some.injEq, forall_eq', exists_eq_left']
    unfold Newer
    tauto
  exact (congrArg (fun rows => (sortRecordings rows).take k) hrows).trans
    (congrArg (List.take k) (Pages.insertionSort_filter (r := NotOlder) _ _))

open ContentState in
/-- The rows behind the last one of the first `m` are the end of the list from some place on, and from
`m` on exactly if that is no split. -/
theorem filter_newer (sorted : rows.Pairwise NotOlder) {m : Nat} (hm : 0 < m) (hlt : m < rows.length) {last} (hlast : rows[m - 1]? = some last) :
    ∃ i, rows.filter (Newer last ·) = rows.drop i ∧ m ≤ i ∧ (¬Split rows m ↔ i = m) := by
  obtain ⟨i, hdrop, hplaces⟩ := Pages.filter_eq_drop (p := (Newer last ·))
    (sorted.imp fun {a b} hab ha => decide_eq_true (Int.lt_of_le_of_lt hab (of_decide_eq_true ha)))
  have hplaces (k : Nat) (x : String × Recording) (hx : rows[k]? = some x) : x.2.createdAt < last.2.createdAt ↔ i ≤ k := decide_eq_true_iff.symm.trans (hplaces k x hx)
  have hbehind : ¬i ≤ m - 1 := fun h => Int.lt_irrefl _ ((hplaces _ _ hlast).mpr h)
  have hnext : rows[m]? = some rows[m] := getElem?_eq_getElem hlt
  have hnot : NotOlder last rows[m] := by
    obtain ⟨hlt', rfl⟩ := List.getElem?_eq_some_iff.mp hlast
    exact pairwise_iff_getElem.mp sorted _ _ hlt' hlt (by omega)
  refine ⟨i, hdrop, by omega, ?_⟩
  have hsplit : ¬Split rows m ↔ rows[m].2.createdAt < last.2.createdAt := by
    unfold Split
    rw [hnext, hlast]
    simp only [Option.mem_def, Option.some.injEq, exists_eq_left']
    exact ⟨fun h => Int.lt_iff_le_and_ne.mpr ⟨hnot, Ne.symm h⟩, fun h => (Int.ne_of_lt h).symm⟩
  rw [hsplit, hplaces _ _ hnext]
  omega

open ContentState in
/-- **The walk from some row on**, the cursor behind the first `j`: it is part of the rest, and the
whole rest exactly if no page ends between two of one time. The induction is on the fuel; a page that
ends so leaves the cursor further on than the page. -/
theorem walk_drop (limits : Nat → Option Int)
    (cursor : ∀ k, s.roomRecordings roomId k before = ((sortRecordings (s.visible roomId)).drop j).take k)
    (enough : (sortRecordings (s.visible roomId)).length - j < n) :
    ∃ rows, s.walk roomId n limits before = some rows ∧ rows.Sublist ((sortRecordings (s.visible roomId)).drop j) ∧
      (rows = (sortRecordings (s.visible roomId)).drop j ↔ ∀ k, ¬Split (sortRecordings (s.visible roomId)) (j + pagesEnd limits k)) := by
  have sorted := @sortRecordings_sorted (s.visible roomId)
  have table : ∀ x ∈ sortRecordings (s.visible roomId), s.recordings[x.1]? = some x.2 := fun x hx =>
    Table.mem_toList.mp (mem_filter.mp ((perm_insertionSort ..).mem_iff.mp hx)).1
  have cursors := @roomRecordings_before s roomId
  generalize sortRecordings (s.visible roomId) = shown at *
  induction n generalizing j before limits with
  | zero => omega
  | succ n ih =>
    have hlimit : 0 < clampLimit (limits 0) := by
      unfold clampLimit
      omega
    rw [walk, roomPage, cursor, take_take, Nat.min_eq_left (Nat.le_succ _)]
    dsimp only
    split
    · rename_i hmore
      rw [decide_eq_true_eq, length_take, length_drop] at hmore
      have hlt : j + clampLimit (limits 0) - 1 < shown.length := by omega
      have hrow : shown[j + clampLimit (limits 0) - 1]? = some shown[j + clampLimit (limits 0) - 1] := getElem?_eq_getElem hlt
      generalize shown[j + clampLimit (limits 0) - 1] = last at hrow
      have hlast : ((shown.drop j).take (clampLimit (limits 0))).getLast? = some last := by
        rw [getLast?_take, if_neg (by omega), getElem?_drop, ← Nat.add_sub_assoc hlimit, hrow, Option.some_or]
      obtain ⟨i, hdrop, hle, hsplit⟩ := filter_newer sorted (by omega) (by omega) hrow
      obtain ⟨rows, hwalk, hsub, hwhole⟩ := @ih i (some last.1) (fun i => limits (i + 1))
        (fun k => by rw [cursors (table _ (mem_of_getElem? hrow)), hdrop]) (by omega)
      rw [hlast, Option.bind_some, hwalk]
      refine ⟨_, rfl, ?_, ?_⟩
      · nth_rewrite 2 [← take_append_drop (clampLimit (limits 0)) (shown.drop j)]
        rw [drop_drop]
        refine (Sublist.refl _).append (hsub.trans ?_)
        rw [← Nat.add_sub_cancel' hle, ← drop_drop]
        exact drop_sublist ..
      · nth_rewrite 2 [← take_append_drop (clampLimit (limits 0)) (shown.drop j)]
        rw [drop_drop, append_cancel_left_eq]
        constructor
        · rintro rfl
          have hlen := hsub.length_le
          rw [length_drop, length_drop] at hlen
          obtain rfl : i = j + clampLimit (limits 0) := by omega
          rintro (_ | k)
          · exact hsplit.mpr rfl
          · rw [pagesEnd, ← Nat.add_assoc]
            exact hwhole.mp rfl k
        · intro hnone
          obtain rfl := hsplit.mp (hnone 0)
          refine hwhole.mpr fun k => ?_
          have := hnone (k + 1)
          rwa [pagesEnd, ← Nat.add_assoc] at this
    · rename_i hmore
      rw [decide_eq_true_eq, length_take, length_drop] at hmore
      refine ⟨_, rfl, take_sublist .., iff_of_true ?_ ?_⟩
      · rw [take_of_length_le]
        rw [length_drop]
        omega
      · rintro k ⟨x, -, y, hy, -⟩
        have hend : clampLimit (limits 0) ≤ pagesEnd limits k := by cases k <;> unfold pagesEnd <;> omega
        have := (List.getElem?_eq_some_iff.mp hy).1
        omega

open ContentState in
/-- The responses of a page have the ids of its rows. -/
theorem respondAll_ids {P} (cfg : ContentConfig) (user matrixRoomId : String) (rows : List (String × Recording)) :
    (respondAll cfg user matrixRoomId rows).While contentService P fun responses => responses.map RecordingResponse.id = rows.map Prod.fst := by
  induction rows with
  | nil => rfl
  | cons x rows ih =>
    refine (Prog.while_true _).bind fun entitled _ => ih.bind fun responses hresponses => ?_
    show RecordingResponse.id _ :: responses.map RecordingResponse.id = x.1 :: rows.map Prod.fst
    rw [hresponses]
    cases entitled <;> rfl

/-- What the handler answers while the recordings stay as they are. -/
theorem listRoomRecordings_page (cfg : ContentConfig) (user matrixRoomId : String) (limit : Option Int) (before : Option String) :
    (listRoomRecordings cfg user matrixRoomId limit before).While contentService
      (fun c => c.recordings = s.recordings ∧ ∀ x ∈ c.roomByMatrixId matrixRoomId, x.1 = roomId) fun r => ∀ page, r = .ok page →
        page.1.map RecordingResponse.id = (s.roomPage roomId limit before).1.map Prod.fst ∧ page.2 = (s.roomPage roomId limit before).2 := by
  intro c fate hc
  refine while_orError nofun fun room hroom => ?_
  cases Except.ok.inj hroom
  cases hfound : c.roomByMatrixId matrixRoomId with
  | none => exact nofun
  | some room =>
    obtain rfl := hc.2 room hfound
    intro c' fate' hc'
    refine while_orError nofun fun rows hrows => ?_
    cases Except.ok.inj hrows
    refine (respondAll_ids cfg user _ _).bind fun responses hresponses => ?_
    rintro page heq
    cases Except.ok.inj heq
    unfold roomPage
    rw [hresponses, roomRecordings, hc'.1]
    exact ⟨rfl, rfl⟩

end

/-- **Every recording once, newest first**, exactly if no page ends between two recordings of one
time: the walk over the pages, and that the pages are what the handler answers. -/
theorem recordings_paged_once (s : ContentState) (roomId : Int) (limits : Nat → Option Int) :
    ((∀ n, (s.visible roomId).length < n →
      ∃ rows, s.walk roomId n limits none = some rows ∧ rows.Perm (s.visible roomId) ∧ rows.Pairwise NotOlder) ↔
      ∀ k, ¬Split (sortRecordings (s.visible roomId)) (pagesEnd limits k)) ∧
    ∀ (cfg : ContentConfig) (user matrixRoomId : String) (limit : Option Int) (before : Option String),
      (listRoomRecordings cfg user matrixRoomId limit before).While contentService
        (fun c => c.recordings = s.recordings ∧ ∀ x ∈ c.roomByMatrixId matrixRoomId, x.1 = roomId) fun r => ∀ page, r = .ok page →
          page.1.map RecordingResponse.id = (s.roomPage roomId limit before).1.map Prod.fst ∧ page.2 = (s.roomPage roomId limit before).2 := by
  have perm : (sortRecordings (s.visible roomId)).Perm (s.visible roomId) := perm_insertionSort ..
  have hwalk {n} (enough : (s.visible roomId).length < n) := @walk_drop s roomId n 0 none limits
    (fun k => by simp [roomRecordings, visible]) (by rwa [perm.length_eq])
  simp only [drop_zero, Nat.zero_add] at hwalk
  refine ⟨⟨fun h => ?_, fun hnone n enough => ?_⟩, listRoomRecordings_page⟩
  · obtain ⟨rows, hrows, hsub, hwhole⟩ := hwalk (Nat.lt_succ_self _)
    obtain ⟨rows', hrows', hperm, -⟩ := h _ (Nat.lt_succ_self _)
    obtain rfl := Option.some.inj (hrows.symm.trans hrows')
    exact hwhole.mp (hsub.eq_of_length (hperm.trans perm.symm).length_eq)
  · obtain ⟨rows, hrows, -, hwhole⟩ := hwalk enough
    obtain rfl := hwhole.mpr hnone
    exact ⟨_, hrows, perm, sortRecordings_sorted⟩

/-- Two ready recordings of a room, created at these times. -/
def twoRecordings (t t' : DateTime) : ContentState :=
  let ready (time : DateTime) : Recording := { Recording.started "s" 1 "@host" "key" "egress" time none with status := .ready }
  { (ContentPool.start 0 ⟨∅, ∅⟩).state with recordings := .ofList [("a", ready t), ("b", ready t')] }

/-- Of two recordings of one time, pages of one show one. -/
theorem twin_lost : ((twoRecordings 1 1).visible 1).length = 2 ∧
    ((twoRecordings 1 1).walk 1 9 (fun _ => some 1) none).map List.length = some 1 := by decide +kernel

end MatrixMedia.Paywall

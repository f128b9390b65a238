import Mathlib.Data.List.Basic
import Mathlib.Tactic.SplitIfs

/-!
# Records at fixed places

Records are written into a file one after another, each at its own multiple of a spacing. A
record that is too long is partly overwritten by those behind it, and what lies between the
records stays as it was.
-/

namespace BadmintonRobot.Semantics.Records

variable {Item : Type} {spacing start : Nat} {bytes : Nat → Item} {records : List (List Item)}
  {record : List Item} {i k p : Nat}

/-- A piece written over what was there. -/
def overlay (bytes : Nat → Item) (start : Nat) (piece : List Item) : Nat → Item :=
  fun p => if start ≤ p then (piece[p - start]?).getD (bytes p) else bytes p

theorem overlay_inside (start : Nat) {item : Item} (present : record[k]? = some item) :
    overlay bytes start record (start + k) = item := by
  rw [overlay, if_pos (Nat.le_add_right start k), Nat.add_sub_cancel_left, present]
  rfl

theorem overlay_outside (outside : p < start ∨ start + record.length ≤ p) :
    overlay bytes start record p = bytes p := by
  rw [overlay]
  split_ifs with behind
  · rw [List.getElem?_eq_none (by omega)]
    rfl
  · rfl

/-- What a place holds afterwards depends on what it held before, and on no other place. -/
theorem overlay_congr {other : Nat → Item} (start : Nat) (piece : List Item)
    (same : bytes p = other p) : overlay bytes start piece p = overlay other start piece p := by
  rw [overlay, overlay, same]

/-- Two pieces written one behind the other are one piece. -/
theorem overlay_append (start : Nat) (front back : List Item) :
    overlay (overlay bytes start front) (start + front.length) back =
      overlay bytes start (front ++ back) := by
  funext p
  rcases Nat.lt_or_ge p start with before | behind
  · rw [overlay_outside (.inl (by omega)), overlay_outside (.inl before),
      overlay_outside (.inl before)]
  · obtain ⟨k, rfl⟩ := Nat.exists_eq_add_of_le behind
    by_cases inFront : k < front.length
    · have here : (front ++ back)[k]? = some front[k] := by
        rw [List.getElem?_append_left inFront, List.getElem?_eq_getElem inFront]
      rw [overlay_inside start here, overlay_outside (.inl (by omega)),
        overlay_inside start (List.getElem?_eq_getElem inFront)]
    · obtain ⟨j, rfl⟩ := Nat.exists_eq_add_of_le (Nat.le_of_not_lt inFront)
      by_cases inBack : j < back.length
      · have here : (front ++ back)[front.length + j]? = some back[j] := by
          rw [List.getElem?_append_right (by omega), Nat.add_sub_cancel_left,
            List.getElem?_eq_getElem inBack]
        rw [overlay_inside start here, ← Nat.add_assoc,
          overlay_inside _ (List.getElem?_eq_getElem inBack)]
      · have behindBoth : (front ++ back).length = front.length + back.length :=
          List.length_append
        rw [overlay_outside (.inr (by omega)), overlay_outside (.inr (by omega)),
          overlay_outside (.inr (by omega))]

/-- Records written in turn, the first of them at `start`. -/
def layout (spacing : Nat) : Nat → List (List Item) → (Nat → Item) → Nat → Item
  | _, [], bytes => bytes
  | start, record :: records, bytes =>
    layout spacing (start + spacing) records (overlay bytes start record)

theorem layout_before (before : p < start) : layout spacing start records bytes p = bytes p := by
  induction records generalizing start bytes with
  | nil => rfl
  | cons record records ih => rw [layout, ih (by omega), overlay_outside (.inl before)]

theorem layout_congr {other : Nat → Item} (same : bytes p = other p) :
    layout spacing start records bytes p = layout spacing start records other p := by
  induction records generalizing start bytes other with
  | nil => exact same
  | cons record records ih => exact ih (overlay_congr start record same)

/-- A record is intact up to the place of the next one. -/
theorem layout_inside {item : Item} (member : records[i]? = some record)
    (present : record[k]? = some item) (own : k < spacing) :
    layout spacing start records bytes (start + i * spacing + k) = item := by
  induction records generalizing start bytes i with
  | nil => cases member
  | cons head records ih =>
    rw [layout]
    cases i with
    | zero =>
      obtain rfl : head = record := by simpa using member
      rw [Nat.zero_mul, Nat.add_zero, layout_before (by omega)]
      exact overlay_inside _ present
    | succ i =>
      have place : start + (i + 1) * spacing + k = start + spacing + i * spacing + k := by
        rw [Nat.succ_mul]
        omega
      rw [place]
      exact ih member

/-- Where no record reaches, nothing has changed. -/
theorem layout_outside
    (outside : ∀ i record, records[i]? = some record →
      p < start + i * spacing ∨ start + i * spacing + record.length ≤ p) :
    layout spacing start records bytes p = bytes p := by
  induction records generalizing start bytes with
  | nil => rfl
  | cons record records ih =>
    have here := outside 0 record rfl
    rw [Nat.zero_mul, Nat.add_zero] at here
    rw [layout, ih, overlay_outside here]
    intro i other member
    have place := outside (i + 1) other member
    rw [Nat.succ_mul] at place
    omega

/-- Every byte is one of a record, or where no record reaches. -/
theorem layout_cases (spacing start : Nat) (records : List (List Item)) (bytes : Nat → Item)
    (p : Nat) :
    (∃ i record k, records[i]? = some record ∧ p = start + i * spacing + k ∧
      record[k]? = some (layout spacing start records bytes p)) ∨
    layout spacing start records bytes p = bytes p ∧
      ∀ i record, records[i]? = some record →
        p < start + i * spacing ∨ start + i * spacing + record.length ≤ p := by
  induction records generalizing start bytes with
  | nil => exact .inr ⟨rfl, nofun⟩
  | cons head records ih =>
    rw [layout]
    rcases ih (start + spacing) (overlay bytes start head) with
      ⟨i, record, k, member, place, present⟩ | ⟨same, outside⟩
    · refine .inl ⟨i + 1, record, k, member, ?_, present⟩
      rw [place, Nat.succ_mul]
      omega
    · by_cases covered : start ≤ p ∧ p < start + head.length
      · obtain ⟨k, rfl⟩ := Nat.exists_eq_add_of_le covered.1
        have inside : k < head.length := by omega
        refine .inl ⟨0, head, k, rfl, by rw [Nat.zero_mul, Nat.add_zero], ?_⟩
        rw [same, overlay_inside _ (List.getElem?_eq_getElem inside),
          List.getElem?_eq_getElem inside]
      · refine .inr ⟨?_, ?_⟩
        · rw [same, overlay_outside (by omega)]
        · intro i record member
          cases i with
          | zero =>
            obtain rfl : head = record := by simpa using member
            rw [Nat.zero_mul, Nat.add_zero]
            omega
          | succ i =>
            have place := outside i record member
            rw [Nat.succ_mul]
            omega

end BadmintonRobot.Semantics.Records

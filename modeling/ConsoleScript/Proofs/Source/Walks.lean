import Mathlib
import ConsoleScript.Proofs.Source.Movement

/-!
# Walks through a text

A cursor can be moved and read from in many ways, and be taken back to any place that was noted on
the way. Whatever is done, and whether it succeeds or not, it stays in its text: it is at most at the
end, what it shows is what the text has there, and its line is the one on which the text has that
place. Only going back ever lowers the position.

Going back trusts the line that was noted. So a walk is sound only together with the places that were
noted on it: each of them is the place of a cursor that was in the text.
-/

namespace ConsoleScript

namespace Cursor

/-- The ways to go on from a place. -/
inductive Move where
  | advance
  | advanceBy (n : Nat)
  | skipBlanks
  | skipLine
  | skipPast (key : String)
  | readIdentifier
  | readString
  | readNumber
deriving DecidableEq

/-- Where the cursor is after the move. What is read counts for nothing here, nor does whether it can
be read. -/
def Move.apply : Move → Cursor → Cursor
  | advance, c => c.advance
  | advanceBy n, c => c.advanceBy n
  | skipBlanks, c => c.skipBlanks
  | skipLine, c => c.skipLine
  | skipPast key, c => c.skipPast key
  | readIdentifier, c => Scan.cursorAfter (Scan.readIdentifier c)
  | readString, c => Scan.cursorAfter (Scan.readString c)
  | readNumber, c => Scan.cursorAfter (Scan.readNumber c)

theorem Move.onward (m : Move) (c : Cursor) : c.Onward (m.apply c) := by
  cases m with
  | advance => exact c.onward_advance
  | advanceBy n => exact c.onward_advanceBy n
  | skipBlanks => exact c.onward_skipWhile _
  | skipLine => exact c.onward_skipLine
  | skipPast key => exact c.onward_skipPast key
  | readIdentifier => exact Scan.forward_readIdentifier c
  | readString => exact Scan.forward_readString c
  | readNumber => exact Scan.forward_readNumber c

theorem Onward.position_le {c d : Cursor} (h : c.Onward d) : c.position ≤ d.position := by
  obtain ⟨n, rfl⟩ := h
  rw [position_advanceBy]
  exact Nat.le_add_right _ _

theorem IsIn.current_eq {text : List Char} {c : Cursor} (h : c.IsIn text) :
    c.current = text.getD c.position endMark := by
  rw [current, lookahead, h.rest, List.getD_eq_getElem?_getD, List.getElem?_drop,
    List.getD_eq_getElem?_getD, Nat.add_zero]

end Cursor

/-- A text with a cursor in it, and the places noted so far, in the order in which they were. -/
structure Walk where
  text : Array Char
  cursor : Cursor
  places : List Checkpoint

namespace Walk

inductive Step where
  | move (m : Cursor.Move)
  | note
  /-- Goes back to the place that was noted as number `i`, counting from zero. -/
  | goBack (i : Nat)
deriving DecidableEq

def start (text : String) : Walk :=
  ⟨text.toList.toArray, Cursor.start text, []⟩

def take (w : Walk) : Step → Walk
  | .move m => { w with cursor := m.apply w.cursor }
  | .note => { w with places := w.places ++ [w.cursor.checkpoint] }
  | .goBack i =>
    match w.places[i]? with
    | some place => { w with cursor := Cursor.restore w.text place }
    | none => w

def takeAll (w : Walk) (steps : List Step) : Walk :=
  steps.foldl take w

/-- The cursor is in the text, and so was every cursor whose place was noted. -/
structure IsIn (text : List Char) (w : Walk) : Prop where
  text_eq : w.text.toList = text
  cursor : w.cursor.IsIn text
  places : ∀ place ∈ w.places, ∃ c : Cursor, c.IsIn text ∧ c.checkpoint = place

theorem isIn_start (text : String) : (start text).IsIn text.toList := by
  refine ⟨List.toList_toArray, Cursor.isIn_start text, ?_⟩
  intro place hplace
  cases hplace

theorem IsIn.cursor_goBack {text : List Char} {w : Walk} (hw : w.IsIn text) {c : Cursor}
    (hc : c.IsIn text) {i : Nat} (hplace : w.places[i]? = some c.checkpoint) :
    (w.take (.goBack i)).cursor = c := by
  rw [take, hplace]
  exact Cursor.IsIn.restore_checkpoint (hw.text_eq ▸ hc)

theorem IsIn.take {text : List Char} {w : Walk} (hw : w.IsIn text) (step : Step) :
    (w.take step).IsIn text := by
  cases step with
  | move m => exact ⟨hw.text_eq, hw.cursor.onward (m.onward w.cursor), hw.places⟩
  | note =>
    refine ⟨hw.text_eq, hw.cursor, ?_⟩
    intro place hplace
    rcases List.mem_append.mp hplace with hold | hnew
    · exact hw.places place hold
    · exact ⟨w.cursor, hw.cursor, (List.mem_singleton.mp hnew).symm⟩
  | goBack i =>
    cases hplace : w.places[i]? with
    | none =>
      rw [Walk.take, hplace]
      exact hw
    | some place =>
      -- The line is the noted one. It is right because the cursor it was noted of was in the text.
      obtain ⟨c, hc, rfl⟩ := hw.places place (List.mem_of_getElem? hplace)
      have hback := hw.cursor_goBack hc hplace
      rw [Walk.take, hplace] at hback ⊢
      exact ⟨hw.text_eq, hback ▸ hc, hw.places⟩

theorem IsIn.takeAll {text : List Char} {w : Walk} (hw : w.IsIn text) (steps : List Step) :
    (w.takeAll steps).IsIn text := by
  induction steps generalizing w with
  | nil => exact hw
  | cons step steps ih => exact ih (hw.take step)

theorem position_take (w : Walk) {step : Step} (h : ∀ i, step ≠ .goBack i) :
    w.cursor.position ≤ (w.take step).cursor.position := by
  cases step with
  | move m => exact (m.onward w.cursor).position_le
  | note => exact Nat.le_refl _
  | goBack i => exact absurd rfl (h i)

theorem places_take (w : Walk) (step : Step) : w.places <+: (w.take step).places := by
  cases step with
  | move m => exact List.prefix_rfl
  | note => exact List.prefix_append _ _
  | goBack i =>
    rw [take]
    cases w.places[i]? <;> exact List.prefix_rfl

theorem places_takeAll (w : Walk) (steps : List Step) : w.places <+: (w.takeAll steps).places := by
  induction steps generalizing w with
  | nil => exact List.prefix_rfl
  | cons step steps ih => exact (w.places_take step).trans (ih (w.take step))

/-- A place that was noted can be gone back to after any number of further steps. -/
theorem IsIn.cursor_goBack_note {text : List Char} {w : Walk} (hw : w.IsIn text)
    (later : List Step) :
    (((w.take .note).takeAll later).take (.goBack w.places.length)).cursor = w.cursor := by
  apply ((hw.take .note).takeAll later).cursor_goBack hw.cursor
  obtain ⟨more, hmore⟩ := (w.take .note).places_takeAll later
  rw [← hmore]
  simp [Walk.take]

end Walk

/-- However a text is walked through, the text stays as it is, and the cursor is in it, no further
than its end, with the character, the line and the rest of the text that belong to its position. No
further step but one back lowers the position. If the place is noted, to go back to it later brings
this same cursor back. -/
theorem walk_in_text (text : String) (steps : List Walk.Step) {w : Walk}
    (hw : (Walk.start text).takeAll steps = w) :
    w.text.toList = text.toList ∧
      w.cursor.position ≤ text.toList.length ∧
      w.cursor.current = text.toList.getD w.cursor.position Cursor.endMark ∧
      w.cursor.line = 1 + (text.toList.take w.cursor.position).count '\n' ∧
      w.cursor.rest = text.toList.drop w.cursor.position ∧
      (∀ step, (∀ i, step ≠ .goBack i) → w.cursor.position ≤ (w.take step).cursor.position) ∧
      ∀ later,
        (((w.take .note).takeAll later).take (.goBack w.places.length)).cursor = w.cursor := by
  have hin : w.IsIn text.toList := hw ▸ (Walk.isIn_start text).takeAll steps
  exact ⟨hin.text_eq, hin.cursor.position_le, hin.cursor.current_eq, hin.cursor.line,
    hin.cursor.rest, fun _ => w.position_take, hin.cursor_goBack_note⟩

/-- A literal on the second line that is not closed: reading it fails at the end, and going on there
is in vain. -/
theorem walk_in_text_unclosed :
    ∃ w, (Walk.start "a\n\"b").takeAll
        [.move (.advanceBy 2), .note, .move .readString, .move (.advanceBy 5)] = w ∧
      w.cursor.position = 4 ∧ w.cursor.current = Cursor.endMark ∧ w.cursor.line = 2 ∧
      4 ≤ (w.take (.move .skipLine)).cursor.position ∧
      (w.take (.goBack 0)).cursor = ⟨2, 2, ['"', 'b']⟩ := by
  obtain ⟨_, _, hcurrent, hline, _, hposition, _⟩ := walk_in_text "a\n\"b"
    [.move (.advanceBy 2), .note, .move .readString, .move (.advanceBy 5)] rfl
  obtain ⟨_, _, _, _, _, _, hback⟩ := walk_in_text "a\n\"b" [.move (.advanceBy 2)] rfl
  refine ⟨_, rfl, rfl, hcurrent.trans rfl, hline.trans rfl, hposition (.move .skipLine) ?_,
    hback [.move .readString, .move (.advanceBy 5)]⟩
  rintro i ⟨⟩

end ConsoleScript

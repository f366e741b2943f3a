import Cookery.Cursor
import Cookery.Proofs.Lists
import Mathlib.Logic.Function.Iterate

/-!
# Positions in bytes

A text can be cut at a position that is counted in bytes only where a character starts, and not
behind its end.  A reader that keeps such a position steps from line to line over a text; here it is
shown to stay at positions where the text can be cut, and to see the lines that a cursor sees.

* `cutAt?`                    the two parts of a text at a position, if it can be cut there;
* `LineReader`, `next?`       a position in a text with the number of lines before it, and the next
                              line; `none` if the text cannot be cut where the reader stands;
* `LineReader.Shows`          the reader and a cursor have read the same lines;
* `LineReader.Shows.next`     they see the same next line and stay together;
* `LineReader.Shows.skip`     so it is after any number of lines.
-/

namespace Cookery

/-! ## cutting a text -/

/-- the parts of a text before and after a position; `none` if the position is behind the end or
inside a character -/
def cutAt? (text : String) (offset : Nat) : Option (String × String) :=
  if h : String.Pos.Raw.IsValid text ⟨offset⟩ then
    some ((text.sliceTo (text.pos ⟨offset⟩ h)).copy, (text.sliceFrom (text.pos ⟨offset⟩ h)).copy)
  else none

/-- a text can be cut exactly after its fronts -/
theorem cutAt?_eq_some_iff {text front rest : String} {offset : Nat} :
    cutAt? text offset = some (front, rest) ↔
      text = front ++ rest ∧ offset = front.utf8ByteSize := by
  unfold cutAt?
  constructor
  · intro h
    split at h
    · rename_i hvalid
      obtain ⟨rfl, rfl⟩ := Prod.mk.inj (Option.some.inj h)
      have hsplits := (text.pos ⟨offset⟩ hvalid).splits
      refine ⟨hsplits.eq_append, ?_⟩
      exact congrArg String.Pos.Raw.byteIdx hsplits.offset_eq_rawEndPos
    · cases h
  · rintro ⟨rfl, rfl⟩
    have hvalid : String.Pos.Raw.IsValid (front ++ rest) ⟨front.utf8ByteSize⟩ :=
      String.Pos.Raw.isValid_iff_exists_append.mpr ⟨front, rest, rfl, rfl⟩
    have hsplits : ((front ++ rest).pos _ hvalid).Splits front rest := ⟨rfl, rfl⟩
    rw [dif_pos hvalid, ← hsplits.eq_left (String.Pos.splits _),
      ← hsplits.eq_right (String.Pos.splits _)]

theorem cutAt?_append (front rest : String) :
    cutAt? (front ++ rest) front.utf8ByteSize = some (front, rest) :=
  cutAt?_eq_some_iff.mpr ⟨rfl, rfl⟩

/-! ## a reader of lines -/

structure LineReader where
  text : String
  offset : Nat
  line : Nat

/-- where the first line feed of a text stands -/
def feed? (text : String) : Option Nat :=
  if '\n' ∈ text.toList then
    some (String.ofList (text.toList.takeWhile (· ≠ '\n'))).utf8ByteSize
  else none

namespace LineReader

def start (source : String) : LineReader := ⟨String.ofList (unifyLineEnds source.toList), 0, 0⟩

/-- the next line, and the reader behind it -/
def next? (r : LineReader) : Option (Line × LineReader) :=
  if r.text.utf8ByteSize ≤ r.offset then some (⟨.ending, "", r.line⟩, r)
  else do
    let (_, rest) ← cutAt? r.text r.offset
    match feed? rest with
    | some stop =>
      let (text, _) ← cutAt? rest stop
      some (⟨LineKind.ofText text, text, r.line + 1⟩, ⟨r.text, r.offset + (stop + 1), r.line + 1⟩)
    | none =>
      some (⟨LineKind.ofText rest, rest, r.line + 1⟩,
        ⟨r.text, r.offset + rest.utf8ByteSize, r.line + 1⟩)

/-- the reader after some lines -/
def skip? (r : LineReader) : Nat → Option LineReader
  | 0 => some r
  | n + 1 => do
    let (_, r) ← r.next?
    r.skip? n

/-- the reader stands after the front of its text, at which the lines of the cursor begin; every
line before it has taken a byte at least -/
structure Shows (r : LineReader) (c : Cursor) (front rest : String) : Prop where
  text : r.text = front ++ rest
  offset : r.offset = front.utf8ByteSize
  lines : c.rest = (splitLines rest.toList).map String.ofList
  read : r.line = c.read
  few : r.line ≤ r.offset

theorem shows_start (source : String) :
    (start source).Shows (Cursor.start source) ""
      (String.ofList (unifyLineEnds source.toList)) where
  text := String.empty_append.symm
  offset := rfl
  lines := by
    rw [String.toList_ofList]
    rfl
  read := rfl
  few := Nat.le_refl _

end LineReader

/-! ## the reader and the cursor -/

/-- a text with a line feed: its first line, and what follows -/
theorem exists_of_feed? {text : String} {stop : Nat} (h : feed? text = some stop) :
    ∃ line after : String, text = line ++ ("\n" ++ after) ∧ '\n' ∉ line.toList ∧
      stop = line.utf8ByteSize := by
  unfold feed? at h
  split at h
  · rename_i hmem
    obtain ⟨line, after, htext, hline⟩ := List.eq_append_cons_of_mem hmem
    have hrun : (line ++ '\n' :: after).takeWhile (· ≠ '\n') = line := by
      apply takeWhile_run
      · intro c hc
        exact decide_eq_true fun hfeed => hline (hfeed ▸ hc)
      · exact forall_mem_head_cons (fun c => decide (c ≠ '\n') = false) rfl after
    refine ⟨String.ofList line, String.ofList after, ?_, ?_, ?_⟩
    · rw [← String.toList_inj, htext]
      simp
    · rw [String.toList_ofList]
      exact hline
    · rw [htext, hrun] at h
      exact (Option.some.inj h).symm
  · cases h

theorem not_mem_of_feed? {text : String} (h : feed? text = none) : '\n' ∉ text.toList := by
  unfold feed? at h
  split at h
  · cases h
  · assumption

namespace LineReader

/-- the reader sees the line that the cursor sees, and the two go on together -/
theorem Shows.next {r : LineReader} {c : Cursor} {front rest : String}
    (h : r.Shows c front rest) :
    ∃ r' front' rest', r.next? = some (c.peek, r') ∧ r'.text = r.text ∧
      r'.Shows c.advance front' rest' := by
  obtain ⟨htext, hoffset, hlines, hread, hfew⟩ := h
  have hsize : r.text.utf8ByteSize = r.offset + rest.utf8ByteSize := by
    rw [htext, String.utf8ByteSize_append, hoffset]
  have hcut : cutAt? r.text r.offset = some (front, rest) :=
    cutAt?_eq_some_iff.mpr ⟨htext, hoffset⟩
  unfold next?
  by_cases hend : r.text.utf8ByteSize ≤ r.offset
  · -- nothing is left of the text, so there are no lines to come
    have hrest : rest = "" := String.utf8ByteSize_eq_zero_iff.mp (by omega)
    have hnone : c.rest = [] := by
      rw [hlines, hrest]
      rfl
    rw [if_pos hend, Cursor.peek, Cursor.advance, hnone, hread]
    exact ⟨r, front, rest, rfl, rfl, htext, hoffset, hlines, hread, hfew⟩
  · rw [if_neg hend, hcut]
    dsimp only [Option.bind_eq_bind, Option.bind_some]
    cases hfeed : feed? rest with
    | some stop =>
      obtain ⟨line, after, rfl, hline, rfl⟩ := exists_of_feed? hfeed
      have hfirst : c.rest = line :: (splitLines after.toList).map String.ofList := by
        rw [hlines, String.toList_append, String.toList_append]
        show List.map _ (splitLines (line.toList ++ '\n' :: after.toList)) = _
        rw [splitLines_append_newline hline, List.map_cons, String.ofList_toList]
      dsimp only
      rw [cutAt?_append, Cursor.peek, Cursor.advance, hfirst, hread]
      refine ⟨_, front ++ (line ++ "\n"), after, rfl, rfl, ?_⟩
      refine ⟨?_, ?_, rfl, rfl, ?_⟩
      · rw [htext, String.append_assoc, String.append_assoc]
      · rw [hoffset, String.utf8ByteSize_append, String.utf8ByteSize_append]
        rfl
      · show c.read + 1 ≤ r.offset + (line.utf8ByteSize + 1)
        omega
    | none =>
      have hline := not_mem_of_feed? hfeed
      have hne : rest.toList ≠ [] := by
        intro hnil
        rw [String.toList_eq_nil_iff.mp hnil] at hsize
        exact hend (Nat.le_of_eq hsize)
      have hfirst : c.rest = [rest] := by
        rw [hlines, splitLines_last hline hne, List.map_singleton, String.ofList_toList]
      dsimp only
      rw [Cursor.peek, Cursor.advance, hfirst, hread]
      refine ⟨_, front ++ rest, "", rfl, rfl, ?_⟩
      refine ⟨?_, ?_, rfl, rfl, ?_⟩
      · rw [htext, String.append_empty]
      · rw [hoffset, String.utf8ByteSize_append]
      · show c.read + 1 ≤ r.offset + rest.utf8ByteSize
        omega

/-- by induction on the lines: the reader is where the cursor is -/
theorem Shows.skip {r : LineReader} {c : Cursor} {front rest : String}
    (h : r.Shows c front rest) (n : Nat) :
    ∃ r' front' rest', r.skip? n = some r' ∧ r'.text = r.text ∧
      r'.Shows (Cursor.advance^[n] c) front' rest' := by
  induction n generalizing r c front rest with
  | zero => exact ⟨r, front, rest, rfl, rfl, h⟩
  | succ n ih =>
    obtain ⟨r₁, front₁, rest₁, hnext, htext₁, hshows₁⟩ := h.next
    obtain ⟨r₂, front₂, rest₂, hskip, htext₂, hshows₂⟩ := ih hshows₁
    refine ⟨r₂, front₂, rest₂, ?_, htext₂.trans htext₁, hshows₂⟩
    rw [skip?, hnext]
    exact hskip

/-- a reader that shows a cursor stands inside its text and before a character -/
theorem Shows.isValid {r : LineReader} {c : Cursor} {front rest : String}
    (h : r.Shows c front rest) :
    r.offset ≤ r.text.utf8ByteSize ∧ String.Pos.Raw.IsValid r.text ⟨r.offset⟩ := by
  rw [h.text, h.offset]
  refine ⟨?_, String.Pos.Raw.isValid_iff_exists_append.mpr ⟨front, rest, rfl, rfl⟩⟩
  rw [String.utf8ByteSize_append]
  omega

end LineReader

end Cookery

import Cookery.Proofs.Reading.Acceptance
import Cookery.Proofs.Text.Bytes

/-!
# A cursor under any order of calls

A cursor is asked for lines, in any order and as often as one likes.  What it answers is said by the
lines of the text and one number, how many of them were read; and a reader that keeps a position in
bytes and a line counter in place of the lines to come gives the same answers.

* `Call`, `Answer`, `Cursor.call`    the calls on a cursor, and what it answers;
* `Answers`, `AnswersAll`            the answer to one call and to some, by the lines and the number
                                     of lines read;
* `Cursor.answers_call`, `Cursor.answersAll_callAll`     a cursor answers so;
* `LineReader.call?`, `LineReader.Shows.call`, `LineReader.Shows.callAll`     and so does a reader
                                     over bytes, which never stands where its text cannot be cut;
* `start_callAll`                    both, from the first line of a text on.
-/

namespace Cookery

inductive Call where
  | next
  | peek
  | skipBlank
  | atEnd

inductive Answer where
  | line (line : Line)
  | nothing
  | truth (value : Bool)

/-- the answer to a call, and the cursor after it -/
def Cursor.call (c : Cursor) : Call → Answer × Cursor
  | .next => (.line c.peek, c.advance)
  | .peek => (.line c.peek, c)
  | .skipBlank => (.nothing, c.skipBlank)
  | .atEnd => (.truth c.atEnd, c)

def Cursor.callAll (c : Cursor) : List Call → List Answer × Cursor
  | [] => ([], c)
  | k :: ks =>
    let (a, c) := c.call k
    let (as, c) := c.callAll ks
    (a :: as, c)

/-! ## what the answers should be -/

/-- the kind of a line, by its text -/
def LineKind.Fits (line : String) : LineKind → Prop
  | .ending => False
  | .heading h => line = h.text
  | .blank => trim line.toList = []
  | .text => trim line.toList ≠ [] ∧ ∀ h : Heading, line ≠ h.text

/-- the answer to a call when `p` lines were read, and how many were read after it -/
inductive Answers (lines : List String) : Nat → Call → Answer → Nat → Prop
  | next {p : Nat} {line : String} {kind : LineKind} (here : lines[p]? = some line)
      (fits : kind.Fits line) : Answers lines p .next (.line ⟨kind, line, p + 1⟩) (p + 1)
  | nextAtEnd : Answers lines lines.length .next (.line ⟨.ending, "", lines.length⟩) lines.length
  | peek {p q : Nat} {a : Answer} (next : Answers lines p .next a q) : Answers lines p .peek a p
  | skipBlank {p q : Nat} (forward : p ≤ q)
      (blank : ∀ i, p ≤ i → i < q → ∃ line, lines[i]? = some line ∧ trim line.toList = [])
      (stop : ∀ line, lines[q]? = some line → trim line.toList ≠ []) :
      Answers lines p .skipBlank .nothing q
  | atEnd {p : Nat} {b : Bool} (all : b = true ↔ p = lines.length) :
      Answers lines p .atEnd (.truth b) p

/-- the answers to some calls one after the other; there are never more lines read than there are -/
inductive AnswersAll (lines : List String) : Nat → List Call → List Answer → Nat → Prop
  | nil {p : Nat} (bound : p ≤ lines.length) : AnswersAll lines p [] [] p
  | cons {p q e : Nat} {k : Call} {ks : List Call} {a : Answer} {as : List Answer}
      (bound : p ≤ lines.length) (one : Answers lines p k a q) (more : AnswersAll lines q ks as e) :
      AnswersAll lines p (k :: ks) (a :: as) e

theorem trim_eq_nil_iff_isBlankLine (line : String) : trim line.toList = [] ↔ IsBlankLine line := by
  rw [trim_eq_nil_iff, isBlankText_iff]

/-- every line has the kind it is given -/
theorem LineKind.fits_ofText (line : String) : (LineKind.ofText line).Fits line := by
  unfold LineKind.ofText
  by_cases hing : line = Heading.ingredients.text
  · rw [if_pos hing]
    exact hing
  by_cases hmeth : line = Heading.method.text
  · rw [if_neg hing, if_pos hmeth]
    exact hmeth
  by_cases hblank : isBlankText line.toList = true
  · rw [if_neg hing, if_neg hmeth, if_pos hblank]
    exact (trim_eq_nil_iff _).mpr hblank
  · rw [if_neg hing, if_neg hmeth, if_neg hblank]
    refine ⟨fun hnil => hblank ((trim_eq_nil_iff _).mp hnil), fun h => ?_⟩
    cases h with
    | ingredients => exact hing
    | method => exact hmeth

/-! ## a cursor answers so -/

namespace Cursor

/-- the cursor over some lines when `p` of them were read -/
def after (lines : List String) (p : Nat) : Cursor := ⟨p, lines.drop p⟩

variable {lines : List String} {p : Nat}

theorem start_eq_after (source : String) : start source = after (documentLines source) 0 := by
  rw [start, textLines_eq]
  rfl

theorem after_of_getElem? {line : String} (h : lines[p]? = some line) :
    after lines p = ⟨p, line :: lines.drop (p + 1)⟩ := by
  obtain ⟨hp, rfl⟩ := List.getElem?_eq_some_iff.mp h
  rw [after, List.drop_eq_getElem_cons hp]

theorem after_length (lines : List String) : after lines lines.length = ⟨lines.length, []⟩ := by
  rw [after, List.drop_length]

/-- the next line, and the cursor behind it -/
theorem answers_next (hp : p ≤ lines.length) :
    ∃ q, q ≤ lines.length ∧ (after lines p).advance = after lines q ∧
      Answers lines p .next (.line (after lines p).peek) q := by
  rcases Nat.lt_or_eq_of_le hp with hlt | rfl
  · have hline := List.getElem?_eq_getElem hlt
    refine ⟨p + 1, hlt, ?_, ?_⟩
    · rw [after_of_getElem? hline]
      rfl
    · rw [after_of_getElem? hline]
      exact .next hline (LineKind.fits_ofText _)
  · refine ⟨lines.length, hp, ?_, ?_⟩
    · rw [after_length]
      rfl
    · rw [after_length]
      exact .nextAtEnd

/-- the lines stepped over are the longest run of blank ones -/
theorem answers_skipBlank (hp : p ≤ lines.length) :
    ∃ q, q ≤ lines.length ∧ (after lines p).skipBlank = after lines q ∧
      Answers lines p .skipBlank .nothing q := by
  obtain ⟨blanks, hrun, hblanks, hstop⟩ := skipBlank_eq_ok (after lines p)
  generalize hrest : (after lines p).skipBlank.rest = rest at hrun hstop
  have hrun : lines.drop p = blanks ++ rest := hrun
  have hlength := congrArg List.length hrun
  rw [List.length_drop, List.length_append] at hlength
  have hdrop : lines.drop (p + blanks.length) = rest := by
    rw [← List.drop_drop, hrun, List.drop_left]
  refine ⟨p + blanks.length, by omega, ?_, .skipBlank (Nat.le_add_right _ _) ?_ ?_⟩
  · rw [after, hrun, skipBlank_append hblanks hstop p, after, hdrop]
  · intro i hpi hi
    obtain ⟨k, rfl⟩ := Nat.exists_eq_add_of_le hpi
    have hk : k < blanks.length := by omega
    have hline : lines[p + k]? = some blanks[k] := by
      rw [← List.getElem?_drop, hrun, List.getElem?_append_left hk, List.getElem?_eq_getElem hk]
    exact ⟨blanks[k], hline,
      (trim_eq_nil_iff_isBlankLine _).mpr (hblanks _ (List.getElem_mem hk))⟩
  · intro line hline hblank
    have hfirst : line ∈ rest.head? := by
      rw [← hdrop, List.head?_drop]
      exact hline
    exact hstop line hfirst ((trim_eq_nil_iff_isBlankLine line).mp hblank)

theorem atEnd_after_iff (hp : p ≤ lines.length) :
    (after lines p).atEnd = true ↔ p = lines.length := by
  show (lines.drop p).isEmpty = true ↔ _
  rw [List.isEmpty_iff, List.drop_eq_nil_iff]
  omega

/-- one call -/
theorem answers_call (hp : p ≤ lines.length) (k : Call) :
    ∃ q, q ≤ lines.length ∧ ((after lines p).call k).2 = after lines q ∧
      Answers lines p k ((after lines p).call k).1 q := by
  obtain ⟨q, hq, hadvance, hnext⟩ := answers_next hp
  cases k with
  | next => exact ⟨q, hq, hadvance, hnext⟩
  | peek => exact ⟨p, hp, rfl, .peek hnext⟩
  | skipBlank => exact answers_skipBlank hp
  | atEnd => exact ⟨p, hp, rfl, .atEnd (atEnd_after_iff hp)⟩

/-- some calls, by induction on them -/
theorem answersAll_callAll (hp : p ≤ lines.length) (ks : List Call) :
    ∃ q, q ≤ lines.length ∧ ((after lines p).callAll ks).2 = after lines q ∧
      AnswersAll lines p ks ((after lines p).callAll ks).1 q := by
  induction ks generalizing p with
  | nil => exact ⟨p, hp, rfl, .nil hp⟩
  | cons k ks ih =>
    obtain ⟨q, hq, hcursor, hone⟩ := answers_call hp k
    obtain ⟨e, he, hend, hmore⟩ := ih hq
    unfold callAll
    dsimp only
    rw [hcursor]
    exact ⟨e, he, hend, .cons hp hone hmore⟩

end Cursor

/-! ## a reader over bytes -/

namespace LineReader

variable {r r' : LineReader} {l : Line}

/-- behind a line there is less of the text left -/
theorem left_lt_of_more (h : r.next? = some (l, r')) (hmore : ¬ r.text.utf8ByteSize ≤ r.offset) :
    r'.text.utf8ByteSize - r'.offset < r.text.utf8ByteSize - r.offset := by
  unfold next? at h
  rw [if_neg hmore] at h
  obtain ⟨⟨front, rest⟩, hcut, h⟩ := Option.bind_eq_some_iff.mp h
  obtain ⟨htext, hoffset⟩ := cutAt?_eq_some_iff.mp hcut
  have hsize : r.text.utf8ByteSize = r.offset + rest.utf8ByteSize := by
    rw [htext, String.utf8ByteSize_append, hoffset]
  dsimp only at h
  split at h
  · obtain ⟨_, -, h⟩ := Option.bind_eq_some_iff.mp h
    obtain ⟨-, rfl⟩ := Prod.mk.inj (Option.some.inj h)
    dsimp only
    omega
  · obtain ⟨-, rfl⟩ := Prod.mk.inj (Option.some.inj h)
    dsimp only
    omega

theorem left_lt_of_next? (h : r.next? = some (l, r')) (hl : l.kind ≠ .ending) :
    r'.text.utf8ByteSize - r'.offset < r.text.utf8ByteSize - r.offset := by
  refine left_lt_of_more h fun hend => ?_
  unfold next? at h
  rw [if_pos hend] at h
  obtain ⟨rfl, -⟩ := Prod.mk.inj (Option.some.inj h)
  exact hl rfl

/-- step over the next line as long as it is blank -/
def skipBlank? (r : LineReader) : Option LineReader :=
  match h : r.next? with
  | none => none
  | some (l, r') =>
    if hl : l.kind = .blank then
      have := left_lt_of_next? h (by simp [hl])
      r'.skipBlank?
    else some r
termination_by r.text.utf8ByteSize - r.offset

theorem skipBlank?_eq (h : r.next? = some (l, r')) :
    r.skipBlank? = if l.kind = .blank then r'.skipBlank? else some r := by
  rw [skipBlank?]
  split
  · rename_i hnone
    cases h.symm.trans hnone
  · rename_i hsome
    obtain ⟨rfl, rfl⟩ := Prod.mk.inj (Option.some.inj (h.symm.trans hsome))
    rfl

/-- the answer to a call, and the reader after it; looking at a line does not move the reader -/
def call? (r : LineReader) : Call → Option (Answer × LineReader)
  | .next => r.next?.map fun (l, r') => (.line l, r')
  | .peek => r.next?.map fun (l, _) => (.line l, r)
  | .skipBlank => r.skipBlank?.map fun r' => (.nothing, r')
  | .atEnd => some (.truth (r.text.utf8ByteSize ≤ r.offset), r)

def callAll? (r : LineReader) : List Call → Option (List Answer × LineReader)
  | [] => some ([], r)
  | k :: ks => do
    let (a, r) ← r.call? k
    let (as, r) ← r.callAll? ks
    some (a :: as, r)

end LineReader

theorem Cursor.skipBlank_eq (c : Cursor) :
    c.skipBlank = if c.peek.kind = .blank then c.advance.skipBlank else c := by
  obtain ⟨read, ls⟩ := c
  cases ls with
  | nil => rfl
  | cons l ls =>
    show skipWhile _ read (l :: ls) =
      if LineKind.ofText l = .blank then skipBlank ⟨read + 1, ls⟩ else _
    rw [skipWhile]
    by_cases hl : LineKind.ofText l = .blank
    · rw [if_pos hl, if_pos (decide_eq_true hl)]
      rfl
    · rw [if_neg hl, if_neg fun h => hl (of_decide_eq_true h)]

namespace LineReader.Shows

/-- by induction on the lines to come: the blank ones are stepped over one by one -/
theorem skipBlank {r : LineReader} {c : Cursor} {front rest : String} (h : r.Shows c front rest) :
    ∃ r' front' rest', r.skipBlank? = some r' ∧ r'.text = r.text ∧
      r'.Shows c.skipBlank front' rest' := by
  obtain ⟨r₁, front₁, rest₁, hnext, htext₁, hshows₁⟩ := h.next
  rw [skipBlank?_eq hnext, c.skipBlank_eq]
  by_cases hblank : c.peek.kind = .blank
  · rw [if_pos hblank, if_pos hblank]
    have hfewer : c.advance.rest.length < c.rest.length := by
      unfold Cursor.peek at hblank
      unfold Cursor.advance
      cases hrest : c.rest with
      | nil =>
        rw [hrest] at hblank
        cases hblank
      | cons l ls => exact Nat.lt_succ_self _
    obtain ⟨r₂, front₂, rest₂, hskip, htext₂, hshows₂⟩ := skipBlank hshows₁
    exact ⟨r₂, front₂, rest₂, hskip, htext₂.trans htext₁, hshows₂⟩
  · rw [if_neg hblank, if_neg hblank]
    exact ⟨r, front, rest, rfl, rfl, h⟩
termination_by c.rest.length

variable {r : LineReader} {c : Cursor} {front rest : String}

theorem size_eq (h : r.Shows c front rest) :
    r.text.utf8ByteSize = r.offset + rest.utf8ByteSize := by
  rw [h.text, String.utf8ByteSize_append, h.offset]

/-- the text is read to its end when there are no lines to come -/
theorem size_le_offset_iff (h : r.Shows c front rest) :
    r.text.utf8ByteSize ≤ r.offset ↔ c.atEnd = true := by
  have hsize := h.size_eq
  have hempty : splitLines rest.toList = [] ↔ rest = "" := by
    rw [splitLines_eq_nil_iff, String.toList_eq_nil_iff]
  rw [Cursor.atEnd, List.isEmpty_iff, h.lines, List.map_eq_nil_iff, hempty,
    ← String.utf8ByteSize_eq_zero_iff]
  omega

/-- one call -/
theorem call (h : r.Shows c front rest) (k : Call) :
    ∃ r' front' rest', r.call? k = some ((c.call k).1, r') ∧ r'.text = r.text ∧
      r'.Shows (c.call k).2 front' rest' := by
  obtain ⟨r₁, front₁, rest₁, hnext, htext₁, hshows₁⟩ := h.next
  cases k with
  | next =>
    refine ⟨r₁, front₁, rest₁, ?_, htext₁, hshows₁⟩
    rw [call?, hnext]
    rfl
  | peek =>
    refine ⟨r, front, rest, ?_, rfl, h⟩
    rw [call?, hnext]
    rfl
  | skipBlank =>
    obtain ⟨r₂, front₂, rest₂, hskip, htext₂, hshows₂⟩ := h.skipBlank
    refine ⟨r₂, front₂, rest₂, ?_, htext₂, hshows₂⟩
    rw [call?, hskip]
    rfl
  | atEnd =>
    refine ⟨r, front, rest, ?_, rfl, h⟩
    have hend : decide (r.text.utf8ByteSize ≤ r.offset) = c.atEnd := by
      rw [Bool.eq_iff_iff, decide_eq_true_iff]
      exact h.size_le_offset_iff
    rw [call?, hend]
    rfl

/-- some calls, by induction on them -/
theorem callAll (h : r.Shows c front rest) (ks : List Call) :
    ∃ r' front' rest', r.callAll? ks = some ((c.callAll ks).1, r') ∧ r'.text = r.text ∧
      r'.Shows (c.callAll ks).2 front' rest' := by
  induction ks generalizing r c front rest with
  | nil => exact ⟨r, front, rest, rfl, rfl, h⟩
  | cons k ks ih =>
    obtain ⟨r₁, front₁, rest₁, hone, htext₁, hshows₁⟩ := h.call k
    obtain ⟨r₂, front₂, rest₂, hmore, htext₂, hshows₂⟩ := ih hshows₁
    refine ⟨r₂, front₂, rest₂, ?_, htext₂.trans htext₁, hshows₂⟩
    unfold callAll?
    rw [hone]
    dsimp only [Option.bind_eq_bind, Option.bind_some]
    rw [hmore]
    rfl

end LineReader.Shows

/-! ## from the first line of a text on -/

/-- whatever is called, in whatever order: there is a number of lines read by which all the answers
are said, the lines to come are the ones after these, and the reader over the bytes of the text
gives the same answers and stands where the lines to come begin -/
theorem start_callAll (source : String) (ks : List Call) :
    ∃ p answers, p ≤ (documentLines source).length ∧
      AnswersAll (documentLines source) 0 ks answers p ∧
      (Cursor.start source).callAll ks = (answers, ⟨p, (documentLines source).drop p⟩) ∧
      ∃ r front rest, (LineReader.start source).callAll? ks = some (answers, r) ∧
        r = ⟨front ++ rest, front.utf8ByteSize, p⟩ ∧
        front ++ rest = String.ofList (unifyLineEnds source.toList) ∧
        (linesOf rest.toList).map String.ofList = (documentLines source).drop p := by
  obtain ⟨p, hp, hcursor, hanswers⟩ :=
    Cursor.answersAll_callAll (Nat.zero_le (documentLines source).length) ks
  obtain ⟨r, front, rest, hreader, htext, hshows⟩ := (LineReader.shows_start source).callAll ks
  rw [← Cursor.start_eq_after] at hcursor hanswers
  refine ⟨p, _, hp, hanswers, Prod.ext rfl hcursor, r, front, rest, hreader, ?_, ?_, ?_⟩
  · obtain ⟨text, offset, line⟩ := r
    obtain ⟨rfl, rfl, -, hread, -⟩ := hshows
    rw [hcursor] at hread
    exact congrArg (LineReader.mk _ _) hread
  · rw [← hshows.text, htext]
    rfl
  · rw [← splitLines_eq, ← hshows.lines, hcursor]
    rfl

end Cookery

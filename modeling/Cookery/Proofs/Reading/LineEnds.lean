import Cookery.Proofs.Reading.Calls

/-!
# Line ends

Each line of a text can end in a line feed or in a carriage return and a line feed, and the last one
needs no line end at all.  However its lines end, a text is read as the same lines.

* `Spells`                       a text writes some lines, each with a line end of its own;
* `Spells.textLines_eq`, `spells_textLines`   it has these lines, and every text writes its lines;
* `LineReader.readAll?`          all lines up to the end of the text, one after the other;
* `LineReader.Shows.readAll`     these are the lines that a cursor has to come;
* `numbered`                     lines with their kinds and the numbers from 1 on;
* `spells_iff_read`              reading gives some lines from exactly the texts that write them,
                                 and a recipe does not depend on how its lines end.
-/

namespace Cookery

/-! ## lines and their ends -/

/-- a text writes the lines, each ended by a line feed, alone or after a carriage return; before a
line feed alone a carriage return would not be part of the line -/
inductive Spells : List String → String → Prop
  | nil : Spells [] ""
  | feed {l : String} {ls : List String} {t : String} (unbroken : '\n' ∉ l.toList)
      (last : l.toList.getLast? ≠ some '\r') (rest : Spells ls t) :
      Spells (l :: ls) (l ++ "\n" ++ t)
  | returnFeed {l : String} {ls : List String} {t : String} (unbroken : '\n' ∉ l.toList)
      (rest : Spells ls t) : Spells (l :: ls) (l ++ "\r\n" ++ t)
  /-- a last line with no end -/
  | last {l : String} (unbroken : '\n' ∉ l.toList) (ne : l ≠ "") : Spells [l] l

theorem Spells.textLines_eq {ls : List String} {t : String} (h : Spells ls t) :
    textLines t = ls := by
  induction h with
  | nil => rfl
  | feed unbroken last _ ih => rw [textLines_feed ⟨unbroken, last⟩, ih]
  | returnFeed unbroken _ ih => rw [textLines_returnFeed unbroken, ih]
  | last unbroken ne => exact textLines_last unbroken ne

/-- a text with a line feed: the first line, its end, and what follows -/
theorem exists_first_line {t : String} (h : '\n' ∈ t.toList) :
    ∃ l after : String, '\n' ∉ l.toList ∧ after.length < t.length ∧
      (t = l ++ "\r\n" ++ after ∨ l.toList.getLast? ≠ some '\r' ∧ t = l ++ "\n" ++ after) := by
  obtain ⟨cs, after, ht, hcs⟩ := List.eq_append_cons_of_mem h
  have hless : (String.ofList after).length < t.length := by
    rw [← String.length_toList, ← String.length_toList, String.toList_ofList, ht,
      List.length_append, List.length_cons]
    omega
  by_cases hlast : cs.getLast? = some '\r'
  · -- the carriage return belongs to the line end
    obtain ⟨ds, rfl⟩ := List.getLast?_eq_some_iff.mp hlast
    refine ⟨String.ofList ds, String.ofList after, ?_, hless, .inl ?_⟩
    · rw [String.toList_ofList]
      intro hmem
      exact hcs (List.mem_append_left _ hmem)
    · rw [← String.toList_inj, ht]
      simp
  · refine ⟨String.ofList cs, String.ofList after, ?_, hless, .inr ⟨?_, ?_⟩⟩
    · rwa [String.toList_ofList]
    · rwa [String.toList_ofList]
    · rw [← String.toList_inj, ht]
      simp

/-- every text writes the lines it has; by induction on its length, line by line -/
theorem spells_textLines (t : String) : Spells (textLines t) t := by
  by_cases hfeed : '\n' ∈ t.toList
  · obtain ⟨l, after, hl, hless, hends⟩ := exists_first_line hfeed
    have ih := spells_textLines after
    rcases hends with rfl | ⟨hlast, rfl⟩
    · rw [textLines_returnFeed hl]
      exact .returnFeed hl ih
    · rw [textLines_feed ⟨hl, hlast⟩]
      exact .feed hl hlast ih
  · by_cases ht : t = ""
    · rw [ht]
      exact .nil
    · rw [textLines_last hfeed ht]
      exact .last hfeed ht
termination_by t.length

/-! ## reading to the end -/

namespace LineReader

/-- one line after the other as long as there is text left: the lines, and the reader at the end -/
def readAll? (r : LineReader) : Option (List Line × LineReader) :=
  if hend : r.text.utf8ByteSize ≤ r.offset then some ([], r)
  else
    match h : r.next? with
    | none => none
    | some (l, r') =>
      have := left_lt_of_more h hend
      r'.readAll?.map fun (ls, e) => (l :: ls, e)
termination_by r.text.utf8ByteSize - r.offset

variable {r r' : LineReader} {l : Line}

theorem readAll?_of_end (h : r.text.utf8ByteSize ≤ r.offset) : r.readAll? = some ([], r) := by
  rw [readAll?, dif_pos h]

theorem readAll?_of_next (hmore : ¬ r.text.utf8ByteSize ≤ r.offset)
    (h : r.next? = some (l, r')) :
    r.readAll? = r'.readAll?.map fun (ls, e) => (l :: ls, e) := by
  rw [readAll?, dif_neg hmore]
  split
  · rename_i hnone
    cases h.symm.trans hnone
  · rename_i hsome
    obtain ⟨rfl, rfl⟩ := Prod.mk.inj (Option.some.inj (h.symm.trans hsome))
    rfl

/-- the reader reads the lines that the cursor has to come; by induction on them -/
theorem Shows.readAll {c : Cursor} {front rest : String} (h : r.Shows c front rest) :
    ∃ e front' rest', r.readAll? = some (c.remaining, e) ∧ e.text = r.text ∧
      e.Shows c.finish front' rest' := by
  obtain ⟨read, ls⟩ := c
  induction ls generalizing r read front rest with
  | nil =>
    refine ⟨r, front, rest, ?_, rfl, h⟩
    exact readAll?_of_end (h.size_le_offset_iff.mpr rfl)
  | cons l ls ih =>
    have hmore : ¬ r.text.utf8ByteSize ≤ r.offset := by
      rw [h.size_le_offset_iff]
      nofun
    obtain ⟨r₁, front₁, rest₁, hnext, htext₁, hshows₁⟩ := h.next
    obtain ⟨e, front', rest', hall, htext, hshows⟩ := ih _ hshows₁
    refine ⟨e, front', rest', ?_, htext.trans htext₁, ?_⟩
    · rw [readAll?_of_next hmore hnext, hall]
      rfl
    · have hfinish : Cursor.finish ⟨read, l :: ls⟩ = Cursor.finish ⟨read + 1, ls⟩ := by
        unfold Cursor.finish
        rw [List.length_cons, Nat.add_right_comm]
        rfl
      rw [hfinish]
      exact hshows

end LineReader

/-! ## the lines of a text, numbered -/

/-- lines with their kinds, numbered from 1 on -/
def numbered (ls : List String) : List Line :=
  (ls.zipIdx 1).map fun (l, n) => ⟨LineKind.ofText l, l, n⟩

theorem linesFrom_eq (read : Nat) (ls : List String) :
    Cursor.linesFrom read ls =
      (ls.zipIdx (read + 1)).map fun (l, n) => ⟨LineKind.ofText l, l, n⟩ := by
  induction ls generalizing read with
  | nil => rfl
  | cons l ls ih =>
    rw [Cursor.linesFrom, List.zipIdx_cons, List.map_cons, ih]

theorem remaining_start (t : String) : (Cursor.start t).remaining = numbered (textLines t) :=
  linesFrom_eq 0 (textLines t)

theorem text_numbered (ls : List String) : (numbered ls).map Line.text = ls := by
  unfold numbered
  rw [List.map_map]
  exact List.zipIdx_map_fst 1 ls

theorem numbered_inj {ls ks : List String} (h : numbered ls = numbered ks) : ls = ks := by
  rw [← text_numbered ls, h, text_numbered]

/-! ## texts that write the same lines -/

/-- a text is read to its end, and its last line has the number of lines -/
theorem readAll?_start (t : String) :
    ∃ e, (LineReader.start t).readAll? = some (numbered (textLines t), e) ∧
      e.offset = e.text.utf8ByteSize ∧ e.line = (textLines t).length := by
  obtain ⟨e, front, rest, hall, -, hshows⟩ := (LineReader.shows_start t).readAll
  rw [remaining_start] at hall
  refine ⟨e, hall, ?_, ?_⟩
  · have hend : e.text.utf8ByteSize ≤ e.offset := hshows.size_le_offset_iff.mpr rfl
    have hsize := hshows.size_eq
    omega
  · rw [hshows.read]
    exact Nat.zero_add _

/-- a recipe is read from the lines of its text -/
theorem parse_eq_of_textLines_eq {t u : String} (h : textLines t = textLines u) :
    Recipe.parse t = Recipe.parse u := by
  unfold Recipe.parse Document.parse
  rw [h]

/-- a text is read to its end as the lines `ls`, with their numbers from 1 on, exactly if it writes
them, whichever line ends it writes them with; the cursor has the same lines to come.  All such
texts give the same recipe or the same error. -/
theorem spells_iff_read (ls : List String) :
    (∀ t, Spells ls t ↔ ∃ e, (LineReader.start t).readAll? = some (numbered ls, e) ∧
      e.offset = e.text.utf8ByteSize ∧ e.line = ls.length) ∧
    (∀ t, Spells ls t → (Cursor.start t).remaining = numbered ls) ∧
    ∀ t u, Spells ls t → Spells ls u → Recipe.parse t = Recipe.parse u := by
  refine ⟨fun t => ⟨fun h => ?_, ?_⟩, fun t h => ?_, fun t u ht hu => ?_⟩
  · rw [← h.textLines_eq]
    exact readAll?_start t
  · rintro ⟨e, hread, -⟩
    obtain ⟨e', hread', -⟩ := readAll?_start t
    have hlines := (Prod.mk.inj (Option.some.inj (hread'.symm.trans hread))).1
    rw [← numbered_inj hlines]
    exact spells_textLines t
  · rw [remaining_start, h.textLines_eq]
  · exact parse_eq_of_textLines_eq (ht.textLines_eq.trans hu.textLines_eq.symm)

/-- a carriage return inside a line, an empty line, a carriage return before the line end, and a
last line without one -/
theorem spells_iff_read_mixed :
    Spells ["So\rup", "", "salt\r", "Method."] "So\rup\n\r\nsalt\r\r\nMethod." ∧
    (Cursor.start "So\rup\n\r\nsalt\r\r\nMethod.").remaining =
      [⟨.text, "So\rup", 1⟩, ⟨.blank, "", 2⟩, ⟨.text, "salt\r", 3⟩,
        ⟨.heading .method, "Method.", 4⟩] ∧
    Recipe.parse "So\rup\n\r\nsalt\r\r\nMethod." =
      Recipe.parse "So\rup\r\n\nsalt\r\r\nMethod.\n" := by
  have hmixed : Spells ["So\rup", "", "salt\r", "Method."] "So\rup\n\r\nsalt\r\r\nMethod." :=
    .feed (by decide) (by decide) (.returnFeed (by decide) (.returnFeed (by decide)
      (.last (by decide) (by decide))))
  have hother : Spells ["So\rup", "", "salt\r", "Method."] "So\rup\r\n\nsalt\r\r\nMethod.\n" :=
    .returnFeed (by decide) (.feed (by decide) (by decide) (.returnFeed (by decide)
      (.feed (by decide) (by decide) .nil)))
  obtain ⟨-, hlines, hparse⟩ := spells_iff_read ["So\rup", "", "salt\r", "Method."]
  exact ⟨hmixed, hlines _ hmixed, hparse _ _ hmixed hother⟩

end Cookery

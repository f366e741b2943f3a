import Cookery.Proofs.Reading.Sections
import Cookery.Proofs.Statement.Wording
import Cookery.Proofs.Text.Lines

/-!
# Methods written on lines of any length

The sentences of a method can be divided into lines in any way, with blanks around each sentence and
with or without a full stop at the end of a line.  Which statements are read does not depend on it:
cutting a line at its full stops gives the sentences back, and no line with a sentence on it can be
taken for the end of the method, since every sentence that is read has a letter `t`.

* `Sentence`, `Written`    sentences, and the texts that write some of them;
* `sentences_of_written`   such a text is cut into these sentences again;
* `MethodLine`             a line with at least one sentence;
* `Laid`                   a text with such lines, and what follows them;
* `t_mem_of_ofSentence`    a sentence that is read has a `t`;
* `readMethod_of_laid`     the method is read from all these lines.
-/

namespace Cookery

/-! ## the sentences of a line -/

/-- blanks on one line -/
structure IsGap (cs : List Char) : Prop where
  blank : isBlankText cs = true
  one_line : '\n' ∉ cs

theorem IsGap.unstopped {cs : List Char} (h : IsGap cs) : '.' ∉ cs := by
  intro hmem
  exact absurd (List.all_eq_true.mp h.blank '.' hmem) (by decide)

/-- a text on one line that no full stop ends, and not only blanks -/
structure Sentence where
  chars : List Char
  unstopped : '.' ∉ chars
  one_line : '\n' ∉ chars
  not_blank : isBlankText chars = false

/-- a sentence is read without the blanks at its ends -/
def Sentence.read (s : Sentence) : Except ReadFault Statement :=
  Statement.ofSentence (trim s.chars)

/-- a text writes some sentences: blanks around each of them and a full stop after each, which may be
missing after the last -/
inductive Written : List Sentence → List Char → Prop
  | nothing {gap : List Char} (is_gap : IsGap gap) : Written [] gap
  | last {before after : List Char} (s : Sentence) (is_before : IsGap before)
      (is_after : IsGap after) : Written [s] (before ++ (s.chars ++ after))
  | stopped {before after line : List Char} {ss : List Sentence} (s : Sentence)
      (is_before : IsGap before) (is_after : IsGap after) (others : Written ss line) :
      Written (s :: ss) (before ++ (s.chars ++ after) ++ '.' :: line)

theorem sentences_of_unstopped {cs : List Char} (h : '.' ∉ cs) :
    sentences cs = [trim cs].filter (!·.isEmpty) := by
  unfold sentences
  rw [List.splitOn_eq_singleton h]
  rfl

theorem sentences_append_stop {cs : List Char} (h : '.' ∉ cs) (line : List Char) :
    sentences (cs ++ '.' :: line) = sentences cs ++ sentences line := by
  rw [sentences_of_unstopped h]
  unfold sentences
  rw [List.splitOn_append_cons_self_of_not_mem h, List.map_cons, ← List.singleton_append,
    List.filter_append]

/-- blanks at the end of a line belong to its last sentence; by induction on the number of
characters, full stop by full stop -/
theorem sentences_append_gap {gap : List Char} (hgap : IsGap gap) (cs : List Char) :
    sentences (cs ++ gap) = sentences cs := by
  by_cases hstop : '.' ∈ cs
  · obtain ⟨as, bs, hcs, has⟩ := List.eq_append_cons_of_mem hstop
    have hless : bs.length < cs.length := by
      rw [hcs, List.length_append, List.length_cons]
      omega
    rw [hcs, List.append_assoc, List.cons_append, sentences_append_stop has,
      sentences_append_stop has, sentences_append_gap hgap bs]
  · have hall : '.' ∉ cs ++ gap := by
      rw [List.mem_append, not_or]
      exact ⟨hstop, hgap.unstopped⟩
    have htrim : trim (cs ++ gap) = trim cs := @trim_append_of_blank [] gap rfl hgap.blank cs
    rw [sentences_of_unstopped hall, sentences_of_unstopped hstop, htrim]
termination_by cs.length

/-- one sentence and the blanks around it -/
theorem Sentence.sentences_eq (s : Sentence) {before after : List Char} (hbefore : IsGap before)
    (hafter : IsGap after) :
    '.' ∉ before ++ (s.chars ++ after) ∧
      sentences (before ++ (s.chars ++ after)) = [trim s.chars] := by
  have hstop : '.' ∉ before ++ (s.chars ++ after) := by
    simp only [List.mem_append, not_or]
    exact ⟨hbefore.unstopped, s.unstopped, hafter.unstopped⟩
  refine ⟨hstop, ?_⟩
  rw [sentences_of_unstopped hstop, trim_append_of_blank hbefore.blank hafter.blank]
  cases htrim : trim s.chars with
  | nil =>
    have hblank := (trim_eq_nil_iff s.chars).mp htrim
    rw [s.not_blank] at hblank
    cases hblank
  | cons c cs => rfl

/-- a line is cut into the sentences that it writes -/
theorem sentences_of_written {ss : List Sentence} {line : List Char} (h : Written ss line) :
    sentences line = ss.map fun s => trim s.chars := by
  induction h with
  | nothing is_gap =>
    rw [sentences_of_unstopped is_gap.unstopped, (trim_eq_nil_iff _).mpr is_gap.blank]
    rfl
  | last s is_before is_after => exact (s.sentences_eq is_before is_after).2
  | stopped s is_before is_after others ih =>
    obtain ⟨hstop, hfirst⟩ := s.sentences_eq is_before is_after
    rw [sentences_append_stop hstop, hfirst, ih]
    rfl

theorem one_line_of_written {ss : List Sentence} {line : List Char} (h : Written ss line) :
    '\n' ∉ line := by
  induction h with
  | nothing is_gap => exact is_gap.one_line
  | last s is_before is_after =>
    simp only [List.mem_append, not_or]
    exact ⟨is_before.one_line, s.one_line, is_after.one_line⟩
  | stopped s is_before is_after others ih =>
    simp only [List.mem_append, List.mem_cons, not_or]
    exact ⟨⟨is_before.one_line, s.one_line, is_after.one_line⟩, by decide, ih⟩

/-! ## sentences and lines that end a method -/

theorem Wording.t_mem_text (w : Wording) : 't' ∈ w.text := by
  cases w with
  | into name bowl =>
    exact List.mem_append_right _ (List.mem_append_left _ (by decide))
  | contents the ordinal? =>
    exact List.mem_append_right _ (List.mem_append_left _ (by decide))
  | transfer bowl dish => exact List.mem_append_left _ (by decide)
  | time place? minutes plural =>
    have hunit : 't' ∈ minuteText plural := by cases plural <;> decide
    exact List.mem_append_right _ (List.mem_append_right _ (List.mem_append_right _ hunit))
  | ending front? verbed =>
    exact List.mem_append_right _ (List.mem_append_left _ (by decide))
  | start name => exact List.mem_append_left _ (by decide)

/-- whatever the verb is, its argument has a `t` -/
theorem t_mem_of_ofSentence {cs : List Char} {st : Statement}
    (h : Statement.ofSentence cs = .ok st) : 't' ∈ cs := by
  obtain ⟨w, -, htext, -⟩ := (decode_eq_unlessZero_iff _ _ (some st)).mp h
  have ht := w.t_mem_text
  rw [htext, String.toList_ofList] at ht
  exact (List.dropWhile_suffix _).subset (mem_of_mem_trim ht)

theorem mem_of_mem_sentences {line cs : List Char} (h : cs ∈ sentences line) {c : Char}
    (hc : c ∈ cs) : c ∈ line := by
  obtain ⟨piece, hpiece, rfl⟩ := List.mem_map.mp (List.mem_filter.mp h).1
  exact (of_mem_splitOn hpiece c (mem_of_mem_trim hc)).2

/-- a line that holds a sentence, and only sentences that are read, is a line of a method -/
theorem not_endsMethod_of_read {line : String} (hne : sentences line.toList ≠ [])
    (hread : ∀ cs ∈ sentences line.toList, ∃ st, Statement.ofSentence cs = .ok st) :
    ¬ EndsMethod line := by
  obtain ⟨cs, others, hcs⟩ := List.exists_cons_of_ne_nil hne
  have hmem : cs ∈ sentences line.toList := by
    rw [hcs]
    exact List.mem_cons_self
  obtain ⟨st, hst⟩ := hread cs hmem
  exact not_endsMethod_of_t (mem_of_mem_sentences hmem (t_mem_of_ofSentence hst))

/-! ## methods -/

/-- a line that writes one sentence or more -/
structure MethodLine where
  group : List Sentence
  line : String
  ne : group ≠ []
  written : Written group line.toList

/-- a text starts with some lines, each ended by a line feed, and goes on with `rest`; the last line
of the text may lack the line feed -/
inductive Laid (rest : String) : List MethodLine → String → Prop
  | nothing : Laid rest [] rest
  | fed {ls : List MethodLine} {text : String} (l : MethodLine) (others : Laid rest ls text) :
      Laid rest (l :: ls) (l.line ++ "\n" ++ text)
  | last (l : MethodLine) (rest_empty : rest = "") : Laid rest [l] l.line

namespace MethodLine

theorem sentences_eq (l : MethodLine) :
    sentences l.line.toList = l.group.map fun s => trim s.chars :=
  sentences_of_written l.written

theorem one_line (l : MethodLine) : '\n' ∉ l.line.toList := one_line_of_written l.written

theorem line_ne (l : MethodLine) : l.line ≠ "" := by
  intro hempty
  have hnone : l.group.map (fun s => trim s.chars) = [] := by
    rw [← l.sentences_eq, hempty]
    rfl
  exact l.ne (List.map_eq_nil_iff.mp hnone)

/-- a carriage return before the line feed is lost, and is a blank after the last sentence -/
theorem textLines_fed (l : MethodLine) (text : String) :
    ∃ k : String, textLines (l.line ++ "\n" ++ text) = k :: textLines text ∧
      sentences k.toList = sentences l.line.toList := by
  by_cases hlast : l.line.toList.getLast? = some '\r'
  · obtain ⟨cs, hcs⟩ := List.getLast?_eq_some_iff.mp hlast
    have hline : l.line = String.ofList cs ++ "\r" := by
      rw [← String.toList_inj, hcs, String.toList_append, String.toList_ofList]
      rfl
    have hfeed : '\n' ∉ (String.ofList cs).toList := by
      intro hmem
      rw [String.toList_ofList] at hmem
      refine l.one_line ?_
      rw [hcs]
      exact List.mem_append_left _ hmem
    have hreturn : IsGap ['\r'] := ⟨by decide, by decide⟩
    refine ⟨String.ofList cs, ?_, ?_⟩
    · have hend : String.ofList cs ++ "\r\n" ++ text = l.line ++ "\n" ++ text := by
        rw [hline, @String.append_assoc _ "\r" "\n"]
        rfl
      rw [← hend, textLines_returnFeed hfeed]
    · rw [hcs, sentences_append_gap hreturn, String.toList_ofList]
  · exact ⟨l.line, textLines_feed ⟨l.one_line, hlast⟩ text, rfl⟩

end MethodLine

/-- the lines of the text, one for each line written, with the sentences that are written there -/
theorem Laid.textLines_eq {rest text : String} {ls : List MethodLine} (h : Laid rest ls text) :
    ∃ ks : List String, textLines text = ks ++ textLines rest ∧
      ks.map (fun k => sentences k.toList) = ls.map fun l => l.group.map fun s => trim s.chars := by
  induction h with
  | nothing => exact ⟨[], rfl, rfl⟩
  | fed l others ih =>
    obtain ⟨ks, htext, hks⟩ := ih
    obtain ⟨k, hfirst, hk⟩ := l.textLines_fed _
    refine ⟨k :: ks, ?_, ?_⟩
    · rw [hfirst, htext, List.cons_append]
    · rw [List.map_cons, List.map_cons, hk, l.sentences_eq, hks]
  | last l rest_empty =>
    refine ⟨[l.line], ?_, ?_⟩
    · rw [textLines_last l.one_line l.line_ne, rest_empty]
      rfl
    · rw [List.map_singleton, List.map_singleton, l.sentences_eq]

/-- however the sentences of a method are laid out, they are read as the same statements, and what
follows the method is left -/
theorem readMethod_of_laid {rest text : String} {ls : List MethodLine} {method : List Statement}
    (hlaid : Laid rest ls text)
    (hread : (ls.flatMap MethodLine.group).map Sentence.read = method.map .ok)
    (hrest : ∀ l ∈ (textLines rest).head?, EndsMethod l) (read : Nat) :
    readMethod read (textLines text) = .ok (method, ⟨read + ls.length, textLines rest⟩) := by
  obtain ⟨ks, htext, hks⟩ := hlaid.textLines_eq
  have hlength : ks.length = ls.length := by
    have hlengths := congrArg List.length hks
    rwa [List.length_map, List.length_map] at hlengths
  have hall : ks.flatMap (fun k => sentences k.toList) =
      (ls.flatMap MethodLine.group).map fun s => trim s.chars := by
    rw [List.flatMap_def, hks, ← List.flatMap_def, List.map_flatMap]
  have hmethod : (ks.flatMap fun k => sentences k.toList).map Statement.ofSentence =
      method.map .ok := by
    rw [hall, List.map_map, ← hread]
    refine List.map_congr_left fun s _ => ?_
    rw [Function.comp_apply, Sentence.read]
  have hends : ∀ k ∈ ks, ¬ EndsMethod k := by
    intro k hk
    refine not_endsMethod_of_read ?_ fun cs hcs => ?_
    · obtain ⟨l, -, hl⟩ := List.mem_map.mp (hks ▸ List.mem_map_of_mem hk)
      rw [← hl]
      exact fun hnil => l.ne (List.map_eq_nil_iff.mp hnil)
    · have hmem : Statement.ofSentence cs ∈ method.map .ok := by
        rw [← hmethod]
        exact List.mem_map_of_mem (List.mem_flatMap.mpr ⟨k, hk, hcs⟩)
      obtain ⟨st, -, hst⟩ := List.mem_map.mp hmem
      exact ⟨st, hst.symm⟩
  rw [htext, readMethod_append ⟨hends, hmethod⟩ hrest, hlength]

def putSentence : Sentence := ⟨"Put x into mixing bowl".toList, by decide, by decide, by decide⟩
def stirSentence : Sentence := ⟨"Stir for 2 minutes".toList, by decide, by decide, by decide⟩
def serveSentence : Sentence := ⟨"Serve the x".toList, by decide, by decide, by decide⟩

/-- three sentences on two lines: the first line ends in a carriage return and no full stop -/
theorem readMethod_of_laid_two_lines :
    readMethod 5 (textLines ("\tPut x into mixing bowl . Stir for 2 minutes\r\n" ++
      "  Serve the x.\nServes 2.\n")) =
      .ok ([.act (.put "x" 0), .act (.stir 0 2), .loopStart "Serve" "x"], ⟨7, ["Serves 2."]⟩) := by
  have none_gap : IsGap [] := ⟨by decide, by decide⟩
  have tab_gap : IsGap ['\t'] := ⟨by decide, by decide⟩
  have spaces_gap : IsGap [' ', ' '] := ⟨by decide, by decide⟩
  have space_gap : IsGap [' '] := ⟨by decide, by decide⟩
  have return_gap : IsGap ['\r'] := ⟨by decide, by decide⟩
  have first : Written [putSentence, stirSentence]
      "\tPut x into mixing bowl . Stir for 2 minutes\r".toList :=
    .stopped putSentence tab_gap space_gap (.last stirSentence space_gap return_gap)
  have second : Written [serveSentence] "  Serve the x.".toList :=
    .stopped serveSentence spaces_gap none_gap (.nothing none_gap)
  have hlaid := Laid.fed ⟨_, _, by decide, first⟩
    (Laid.fed ⟨_, _, by decide, second⟩ (@Laid.nothing "Serves 2.\n"))
  have hput : putSentence.read = .ok (.act (.put "x" 0)) := by
    show Statement.ofSentence (trim "Put x into mixing bowl".toList) = _
    rfl
  have hstir : stirSentence.read = .ok (.act (.stir 0 2)) := by
    show Statement.ofSentence (trim "Stir for 2 minutes".toList) = _
    rfl
  have hserve : serveSentence.read = .ok (.loopStart "Serve" "x") := by
    show Statement.ofSentence (trim "Serve the x".toList) = _
    rfl
  have hserves : ServesLine "Serves 2." 2 := (servesLine?_eq_some_iff _ _).mp (by decide)
  refine readMethod_of_laid hlaid ?_ (fun l hl => ?_) 5
  · show [putSentence.read, stirSentence.read, serveSentence.read] = _
    rw [hput, hstir, hserve]
    rfl
  · obtain rfl : "Serves 2." = l := Option.some.inj hl
    exact .inr ⟨2, hserves⟩

end Cookery

import Cookery.Recipe.Printer
import Cookery.Text.Lines

/-!
# Lines cut out of a text and joined again

* `linesOf`             the pieces between the line feeds, without an empty last one;
* `splitLines_eq`       the lines of a text are these, `head_splitLines` the first of them;
* `textLines_eq_nil_iff`   only the empty text has none;
* `Unbroken`            lines without a line feed, as all lines of a text are;
* `textLines_returnFeed`, `textLines_unlines`   a line and its line end come off the front, so such
                        lines, joined, are cut where they were joined;
* `IsOneLine`, `textLines_feed`, `feedLines`, `textLines_feedLines`   the same for lines that end in
                        a line feed alone;
* `textLines_last`      a last line needs no line end;
* `textLines_append`    a text after one that ends in a line feed has lines of its own.
-/

namespace Cookery

/-! ## cutting at line feeds -/

/-- the pieces between the line feeds; what follows a final line feed is no line -/
def linesOf (cs : List Char) : List (List Char) :=
  if (cs.splitOn '\n').getLast? = some [] then (cs.splitOn '\n').dropLast else cs.splitOn '\n'

theorem linesOf_newline (cs : List Char) : linesOf ('\n' :: cs) = [] :: linesOf cs := by
  have hcut : ('\n' :: cs).splitOn '\n' = [] :: cs.splitOn '\n' := by
    rw [List.splitOn_cons_eq_if_modifyHead, if_pos (beq_self_eq_true _)]
  have hne := List.splitOn_ne_nil '\n' cs
  unfold linesOf
  rw [hcut, List.getLast?_cons_of_ne_nil hne, List.dropLast_cons_of_ne_nil hne]
  split <;> rfl

theorem linesOf_cons {c : Char} (hc : c ≠ '\n') (cs : List Char) :
    linesOf (c :: cs) = consLine c (linesOf cs) := by
  have hcut : (c :: cs).splitOn '\n' = (cs.splitOn '\n').modifyHead (c :: ·) := by
    rw [List.splitOn_cons_eq_if_modifyHead, if_neg (by simpa using hc)]
  have hne := List.splitOn_ne_nil '\n' cs
  unfold linesOf
  rw [hcut]
  -- an empty piece is the last one and the first one only when there is one piece
  cases hpieces : cs.splitOn '\n' with
  | nil => exact absurd hpieces hne
  | cons l ls =>
    cases ls with
    | nil =>
      cases l with
      | nil => rfl
      | cons d l => rfl
    | cons k ls =>
      rw [List.modifyHead_cons, List.getLast?_cons_cons, List.getLast?_cons_cons]
      split <;> rfl

theorem splitLines_eq (cs : List Char) : splitLines cs = linesOf cs := by
  induction cs with
  | nil => rfl
  | cons c cs ih =>
    rw [splitLines]
    split
    · rename_i hc
      rw [hc, linesOf_newline, ih]
    · rename_i hc
      rw [linesOf_cons hc, ih]

/-- the first line is what stands before the first line feed -/
theorem head_splitLines (cs : List Char) :
    (splitLines cs).head?.getD [] = cs.takeWhile (· ≠ '\n') := by
  induction cs with
  | nil => rfl
  | cons c cs ih =>
    by_cases hc : c = '\n'
    · rw [hc, splitLines_newline]
      rfl
    · have hp : decide (c ≠ '\n') = true := decide_eq_true hc
      rw [splitLines, if_neg hc, List.takeWhile_cons, if_pos hp, ← ih]
      cases splitLines cs with
      | nil => rfl
      | cons l ls => rfl

/-! ## texts without lines -/

theorem unifyLineEnds_eq_nil_iff (cs : List Char) : unifyLineEnds cs = [] ↔ cs = [] := by
  fun_cases unifyLineEnds cs <;> simp

theorem splitLines_eq_nil_iff (cs : List Char) : splitLines cs = [] ↔ cs = [] := by
  cases cs with
  | nil => exact ⟨fun _ => rfl, fun _ => rfl⟩
  | cons c cs =>
    refine ⟨fun h => ?_, nofun⟩
    rw [splitLines] at h
    split at h
    · cases h
    · cases hs : splitLines cs with
      | nil =>
        rw [hs] at h
        cases h
      | cons l ls =>
        rw [hs] at h
        cases h

/-- only the empty text has no lines -/
theorem textLines_eq_nil_iff (source : String) : textLines source = [] ↔ source = "" := by
  unfold textLines
  rw [List.map_eq_nil_iff, splitLines_eq_nil_iff, unifyLineEnds_eq_nil_iff,
    String.toList_eq_nil_iff]

/-! ## joining lines -/

theorem unifyLineEnds_cons {c : Char} (hc : c ≠ '\r') (cs : List Char) :
    unifyLineEnds (c :: cs) = c :: unifyLineEnds cs := by
  rw [unifyLineEnds]
  intro _ h
  exact absurd h hc

theorem unifyLineEnds_return {c : Char} (hc : c ≠ '\n') (cs : List Char) :
    unifyLineEnds ('\r' :: c :: cs) = '\r' :: unifyLineEnds (c :: cs) := by
  rw [unifyLineEnds]
  rintro cs' _ h
  exact absurd (List.cons.inj h).1 hc

/-- a carriage return inside a line stays: only the one before the line feed goes -/
theorem unifyLineEnds_append {l : List Char} (h : '\n' ∉ l) (cs : List Char) :
    unifyLineEnds (l ++ '\r' :: '\n' :: cs) = l ++ '\n' :: unifyLineEnds cs := by
  induction l with
  | nil => rw [List.nil_append, List.nil_append, unifyLineEnds]
  | cons c l ih =>
    have hc : '\n' ≠ c := fun he => h (he ▸ List.mem_cons_self)
    have hl : '\n' ∉ l := fun hm => h (List.mem_cons_of_mem _ hm)
    by_cases hr : c = '\r'
    · subst hr
      cases l with
      | nil =>
        rw [List.cons_append, List.nil_append, unifyLineEnds_return (by decide), unifyLineEnds]
        rfl
      | cons d l =>
        have hd : d ≠ '\n' := fun he => hl (he ▸ List.mem_cons_self)
        rw [List.cons_append, List.cons_append, unifyLineEnds_return hd, ← List.cons_append, ih hl]
        rfl
    · rw [List.cons_append, unifyLineEnds_cons hr, ih hl]
      rfl

/-- a carriage return and a line feed end a line -/
theorem textLines_returnFeed {l : String} (h : '\n' ∉ l.toList) (t : String) :
    textLines (l ++ "\r\n" ++ t) = l :: textLines t := by
  have htext : (l ++ "\r\n" ++ t).toList = l.toList ++ '\r' :: '\n' :: t.toList := by simp
  unfold textLines
  rw [htext, unifyLineEnds_append h, splitLines_append_newline h, List.map_cons,
    String.ofList_toList]

theorem unlines_cons (l : String) (ls : List String) :
    unlines (l :: ls) = l ++ "\r\n" ++ unlines ls := by
  simp [unlines]

/-- no line holds a line feed -/
def Unbroken (ls : List String) : Prop := ∀ l ∈ ls, '\n' ∉ l.toList

theorem Unbroken.of_subset {ls ks : List String} (h : Unbroken ls) (hsub : ks ⊆ ls) : Unbroken ks :=
  fun l hl => h l (hsub hl)

theorem Unbroken.cons {l : String} (hl : '\n' ∉ l.toList) {ls : List String} (h : Unbroken ls) :
    Unbroken (l :: ls) := by
  intro k hk
  rcases List.mem_cons.mp hk with rfl | hk
  · exact hl
  · exact h k hk

theorem unbroken_textLines (source : String) : Unbroken (textLines source) := by
  intro l hl
  obtain ⟨cs, hcs, rfl⟩ := List.mem_map.mp hl
  rw [String.toList_ofList]
  exact not_mem_of_mem_splitLines hcs

theorem textLines_unlines {ls : List String} (h : Unbroken ls) :
    textLines (unlines ls) = ls := by
  induction ls with
  | nil => rfl
  | cons l ls ih =>
    rw [unlines_cons, textLines_returnFeed (h l List.mem_cons_self),
      ih fun k hk => h k (List.mem_cons_of_mem _ hk)]

/-! ## line feeds alone -/

/-- the lines, each with a line feed -/
def feedLines (lines : List String) : String := String.join (lines.map (· ++ "\n"))

/-- one line, which a line feed after it ends where it ends -/
structure IsOneLine (l : String) : Prop where
  unbroken : '\n' ∉ l.toList
  last : l.toList.getLast? ≠ some '\r'

/-- a line feed takes a carriage return from the line only if the line ends in one -/
theorem unifyLineEnds_append_newline {l : List Char} (h : '\n' ∉ l)
    (hlast : l.getLast? ≠ some '\r') (cs : List Char) :
    unifyLineEnds (l ++ '\n' :: cs) = l ++ '\n' :: unifyLineEnds cs := by
  induction l with
  | nil => exact unifyLineEnds_cons (by decide) cs
  | cons c l ih =>
    have hl : '\n' ∉ l := fun hm => h (List.mem_cons_of_mem _ hm)
    cases l with
    | nil =>
      have hr : c ≠ '\r' := fun he => hlast (he ▸ rfl)
      show unifyLineEnds (c :: '\n' :: cs) = c :: '\n' :: unifyLineEnds cs
      rw [unifyLineEnds_cons hr, unifyLineEnds_cons (by decide)]
    | cons d l =>
      have hd : d ≠ '\n' := fun he => hl (he ▸ List.mem_cons_self)
      have hrest := ih hl (by rwa [List.getLast?_cons_cons] at hlast)
      by_cases hr : c = '\r'
      · rw [hr, List.cons_append, List.cons_append, unifyLineEnds_return hd, ← List.cons_append,
          hrest]
        rfl
      · rw [List.cons_append, unifyLineEnds_cons hr, hrest]
        rfl

/-- a line feed ends a line -/
theorem textLines_feed {l : String} (h : IsOneLine l) (t : String) :
    textLines (l ++ "\n" ++ t) = l :: textLines t := by
  have htext : (l ++ "\n" ++ t).toList = l.toList ++ '\n' :: t.toList := by simp
  unfold textLines
  rw [htext, unifyLineEnds_append_newline h.unbroken h.last, splitLines_append_newline h.unbroken,
    List.map_cons, String.ofList_toList]

theorem feedLines_append (ls ks : List String) :
    feedLines (ls ++ ks) = feedLines ls ++ feedLines ks := by
  simp [feedLines]

theorem textLines_feedLines {ls : List String} (h : ∀ l ∈ ls, IsOneLine l) :
    textLines (feedLines ls) = ls := by
  induction ls with
  | nil => rfl
  | cons l ls ih =>
    have hfeed : feedLines (l :: ls) = l ++ "\n" ++ feedLines ls := by simp [feedLines]
    rw [hfeed, textLines_feed (h l List.mem_cons_self),
      ih fun k hk => h k (List.mem_cons_of_mem _ hk)]

/-- lines joined with line feeds, and one more line feed -/
theorem intercalate_append_newline (l : String) (ls : List String) :
    "\n".intercalate (l :: ls) ++ "\n" = feedLines (l :: ls) := by
  induction ls generalizing l with
  | nil => simp [feedLines]
  | cons k ls ih =>
    rw [String.intercalate_cons_cons, String.append_assoc, ih]
    simp [feedLines]

/-! ## a last line without a line end -/

/-- without a line feed there is nothing to unify -/
theorem unifyLineEnds_of_not_mem {l : List Char} (h : '\n' ∉ l) : unifyLineEnds l = l := by
  induction l with
  | nil => rfl
  | cons c l ih =>
    have hl : '\n' ∉ l := fun hm => h (List.mem_cons_of_mem _ hm)
    rw [unifyLineEnds, ih hl]
    rintro cs - rfl
    exact hl List.mem_cons_self

theorem textLines_last {l : String} (h : '\n' ∉ l.toList) (hne : l ≠ "") : textLines l = [l] := by
  have hchars : l.toList ≠ [] := fun hnil => hne (String.toList_eq_nil_iff.mp hnil)
  unfold textLines
  rw [unifyLineEnds_of_not_mem h, splitLines_last h hchars, List.map_singleton,
    String.ofList_toList]

/-! ## texts one after the other -/

theorem unifyLineEnds_newline (cs : List Char) :
    unifyLineEnds ('\n' :: cs) = '\n' :: unifyLineEnds cs :=
  unifyLineEnds_cons (by decide) cs

/-- what stands before a line feed is unified without regard to what follows; by the recursion of
`unifyLineEnds`, since a carriage return takes two characters at a time -/
theorem exists_unifyLineEnds_append (l : List Char) :
    ∃ m, ∀ cs, unifyLineEnds (l ++ '\n' :: cs) = m ++ '\n' :: unifyLineEnds cs := by
  induction l using unifyLineEnds.induct with
  | case1 l ih =>
    obtain ⟨m, hm⟩ := ih
    refine ⟨'\n' :: m, fun cs => ?_⟩
    show unifyLineEnds ('\r' :: '\n' :: (l ++ '\n' :: cs)) = _
    rw [unifyLineEnds, hm, List.cons_append]
  | case2 c l hpair ih =>
    obtain ⟨m, hm⟩ := ih
    by_cases hc : c = '\r'
    · cases l with
      | nil =>
        -- the line feed itself ends the pair
        refine ⟨[], fun cs => ?_⟩
        show unifyLineEnds (c :: '\n' :: cs) = _
        rw [hc, unifyLineEnds, List.nil_append]
      | cons d l =>
        have hd : d ≠ '\n' := fun he => hpair l hc (by rw [he])
        refine ⟨c :: m, fun cs => ?_⟩
        show unifyLineEnds (c :: d :: (l ++ '\n' :: cs)) = _
        rw [hc, unifyLineEnds_return hd, ← List.cons_append, hm, List.cons_append]
    · refine ⟨c :: m, fun cs => ?_⟩
      rw [List.cons_append, unifyLineEnds_cons hc, hm, List.cons_append]
  | case3 => exact ⟨[], fun cs => unifyLineEnds_newline cs⟩

theorem splitLines_append (m cs : List Char) :
    splitLines (m ++ '\n' :: cs) = splitLines (m ++ ['\n']) ++ splitLines cs := by
  induction m with
  | nil => rfl
  | cons c m ih =>
    rw [List.cons_append, List.cons_append, splitLines, splitLines, ih]
    by_cases hc : c = '\n'
    · rw [if_pos hc, if_pos hc, List.cons_append]
    · rw [if_neg hc, if_neg hc]
      cases hm : splitLines (m ++ ['\n']) with
      | nil =>
        rw [splitLines_eq_nil_iff] at hm
        simp at hm
      | cons l ls => rfl

/-- the lines of two texts, where the first one ends in a line feed -/
theorem textLines_append {s : String} (hs : s.toList.getLast? = some '\n') (t : String) :
    textLines (s ++ t) = textLines s ++ textLines t := by
  obtain ⟨l, hl⟩ := List.getLast?_eq_some_iff.mp hs
  obtain ⟨m, hm⟩ := exists_unifyLineEnds_append l
  have hfirst : unifyLineEnds s.toList = m ++ ['\n'] := by
    rw [hl, hm []]
    rfl
  have hboth : unifyLineEnds (s ++ t).toList = m ++ '\n' :: unifyLineEnds t.toList := by
    rw [String.toList_append, hl, List.append_assoc, List.singleton_append, hm]
  unfold textLines
  rw [hboth, splitLines_append, List.map_append, hfirst]

end Cookery

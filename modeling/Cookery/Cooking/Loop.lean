import Cookery.Statement
import Cookery.Text.Lowercase

/-!
# Loops in a method

A method is a flat list of statements.  A loop runs from its start to the first later statement
that ends it: a loop end whose word is a past tense of the loop's verb.

* `Statement.closes`      does a statement end the loops of a verb?
* `LoopCut`, `cutLoop?`   the statements after a loop start, cut at the end of the loop;
* `cutLoop?_cons_of_open`  a cut by the first statement;
* `cutLoop?_eq_some`, `cutLoop?_append`   a cut is at the first statement that closes the loop;
* `length_of_cutLoop?`    a cut leaves less than there was.
-/

namespace Cookery

/-- does a statement end the loops of a verb? -/
def Statement.closes (verb : String) : Statement → Bool
  | .loopEnd verbed _ => isPastTense verbed verb
  | _ => false

/-- the body of a loop, the ingredient named at its end, and what follows -/
structure LoopCut where
  body : List Statement
  until? : Option String
  rest : List Statement
deriving DecidableEq

/-- cut the statements after a loop start at the end of the loop -/
def cutLoop? (verb : String) : List Statement → Option LoopCut
  | [] => none
  | .loopEnd verbed ingredient? :: ss =>
    if isPastTense verbed verb then some ⟨[], ingredient?, ss⟩
    else (cutLoop? verb ss).map fun cut =>
      { cut with body := .loopEnd verbed ingredient? :: cut.body }
  | s :: ss => (cutLoop? verb ss).map fun cut => { cut with body := s :: cut.body }

/-- a statement that does not close the loop goes into its body -/
theorem cutLoop?_cons_of_open {verb : String} {s : Statement} (h : s.closes verb = false)
    (ss : List Statement) :
    cutLoop? verb (s :: ss) =
      (cutLoop? verb ss).map fun cut => { cut with body := s :: cut.body } := by
  cases s with
  | act a => rfl
  | loopStart v i => rfl
  | loopEnd w i? =>
    have hw : isPastTense w verb = false := h
    rw [cutLoop?, hw]
    rfl

/-- a cut is at the first statement that closes the loop -/
theorem cutLoop?_eq_some {verb : String} {ss : List Statement} {cut : LoopCut}
    (h : cutLoop? verb ss = some cut) :
    (∀ s ∈ cut.body, s.closes verb = false) ∧
      ∃ verbed, isPastTense verbed verb = true ∧
        ss = cut.body ++ .loopEnd verbed cut.until? :: cut.rest := by
  induction ss generalizing cut with
  | nil => simp [cutLoop?] at h
  | cons s ss ih =>
    cases s with
    | act a =>
      obtain ⟨cut', hc, rfl⟩ := Option.map_eq_some_iff.1 h
      obtain ⟨hb, verbed, hv, rfl⟩ := ih hc
      exact ⟨by simpa [Statement.closes] using hb, verbed, hv, rfl⟩
    | loopStart v i =>
      obtain ⟨cut', hc, rfl⟩ := Option.map_eq_some_iff.1 h
      obtain ⟨hb, verbed, hv, rfl⟩ := ih hc
      exact ⟨by simpa [Statement.closes] using hb, verbed, hv, rfl⟩
    | loopEnd w i? =>
      rw [cutLoop?] at h
      split at h
      · rename_i hw
        cases h
        exact ⟨by simp, w, hw, rfl⟩
      · rename_i hw
        obtain ⟨cut', hc, rfl⟩ := Option.map_eq_some_iff.1 h
        obtain ⟨hb, verbed, hv, rfl⟩ := ih hc
        exact ⟨by simpa [Statement.closes, hw] using hb, verbed, hv, rfl⟩

/-- the first statement that closes the loop is where the cut is -/
theorem cutLoop?_append {verb verbed : String} {until? : Option String}
    {body rest : List Statement} (hb : ∀ s ∈ body, s.closes verb = false)
    (hv : isPastTense verbed verb = true) :
    cutLoop? verb (body ++ .loopEnd verbed until? :: rest) = some ⟨body, until?, rest⟩ := by
  induction body with
  | nil => simp [cutLoop?, hv]
  | cons s body ih =>
    have hs := hb s List.mem_cons_self
    have hc := ih fun s h => hb s (List.mem_cons_of_mem _ h)
    cases s with
    | act a => simp [cutLoop?, hc]
    | loopStart v i => simp [cutLoop?, hc]
    | loopEnd w i? =>
      rw [Statement.closes] at hs
      simp [cutLoop?, hs, hc]

/-- a cut takes its loop end away -/
theorem length_of_cutLoop? {verb : String} {ss : List Statement} {cut : LoopCut}
    (h : cutLoop? verb ss = some cut) : cut.body.length + cut.rest.length < ss.length := by
  obtain ⟨_, _, _, rfl⟩ := cutLoop?_eq_some h
  simp only [List.length_append, List.length_cons]
  omega

end Cookery

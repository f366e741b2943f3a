import Cookery.Cooking.Loop
import Cookery.Proofs.Text.Lowercase
import Cookery.Statement.Sentence

/-!
# Regular past tenses and the ends of loops

A verb is written in small letters before its past tenses are made from it, and the word at the end
of a loop is written in small letters as a whole.  The two agree for a final `y` that becomes `ied`.
For the other endings they agree for just the verbs without a sigma at the end, and for a doubled
last letter without a dotted capital I there, which has two small characters.

* `mem_pastTenses_iff`           the past tenses of a verb in small letters;
* `EndsInSigma.not_pastTense`    the small final sigma of a verb stays in all of them;
* `Closes`                       a word is a past tense of a verb and ends its loops;
* `closes_iff`                   the one is as good as the other;
* `regular_closes_iff`           which regular past tenses close a loop.
-/

namespace Cookery

/-! ## past tenses of a verb in small letters -/

theorem mem_pastTenses_iff (verb w : List Char) :
    w ∈ pastTenses verb ↔ w = verb ++ ['d'] ∨ w = verb ++ ['e', 'd'] ∨
      (∃ last, verb.getLast? = some last ∧ w = verb ++ [last, 'e', 'd']) ∨
      ∃ stem, verb = stem ++ ['y'] ∧ w = stem ++ ['i', 'e', 'd'] := by
  unfold pastTenses
  cases hlast : verb.getLast? with
  | none =>
    obtain rfl := List.getLast?_eq_none_iff.mp hlast
    simp
  | some last =>
    obtain ⟨stem, rfl⟩ := List.getLast?_eq_some_iff.mp hlast
    by_cases hy : last = 'y'
    · subst hy
      simp
    · simp [hy]

theorem isPastTense_iff (verbed verb : String) :
    isPastTense verbed verb = true ↔ lower verbed.toList ∈ pastTenses (lower verb.toList) := by
  unfold isPastTense
  exact List.contains_iff_mem

theorem length_le_of_mem_pastTenses {verb w : List Char} (h : w ∈ pastTenses verb) :
    w.length ≤ verb.length + 3 := by
  rcases (mem_pastTenses_iff verb w).mp h with rfl | rfl | ⟨_, _, rfl⟩ | ⟨stem, rfl, rfl⟩ <;>
    simp

/-- no past tense changes the letters of a verb up to one that is not its last `y` -/
theorem start_of_mem_pastTenses {a m w : List Char} {c : Char} (hc : c ≠ 'y')
    (h : w ∈ pastTenses (a ++ c :: m)) : ∃ r, w = a ++ c :: r := by
  rcases (mem_pastTenses_iff _ w).mp h with rfl | rfl | ⟨_, _, rfl⟩ | ⟨stem, hverb, rfl⟩
  · exact ⟨m ++ ['d'], by simp⟩
  · exact ⟨m ++ ['e', 'd'], by simp⟩
  · exact ⟨_, List.append_assoc _ _ _⟩
  · rcases List.eq_nil_or_concat m with rfl | ⟨front, y, rfl⟩
    · obtain ⟨-, hy⟩ := List.append_inj' hverb rfl
      exact absurd (List.cons.inj hy).1 hc
    · rw [List.concat_eq_append, ← List.cons_append, ← List.append_assoc] at hverb
      obtain ⟨rfl, -⟩ := List.append_inj' hverb rfl
      exact ⟨front ++ ['i', 'e', 'd'], by simp⟩

/-! ## endings -/

theorem ending_facts :
    (meetsCased ['d'] = true ∧ meetsCased ['e', 'd'] = true ∧ meetsCased ['i', 'e', 'd'] = true) ∧
      lower ['d'] = ['d'] ∧ lower ['e', 'd'] = ['e', 'd'] ∧
      lower ['i', 'e', 'd'] = ['i', 'e', 'd'] := by
  decide +kernel

/-- the small final sigma of a verb stays in its past tenses, but an ending that starts with a letter
changes it -/
theorem EndsInSigma.not_pastTense {cs after : List Char} (h : EndsInSigma [] cs)
    (hafter : meetsCased after = true) : lower (cs ++ after) ∉ pastTenses (lower cs) := by
  intro hmem
  obtain ⟨a, m, hverb, hwithin⟩ := h.lowerWithin_eq hafter
  rw [lower_append, hwithin, lower, hverb] at hmem
  obtain ⟨r, hr⟩ := start_of_mem_pastTenses (by decide) hmem
  rw [List.append_assoc, List.cons_append] at hr
  exact absurd (List.cons.inj (List.append_cancel_left hr)).1 (by decide)

/-- an ending that is the same for all verbs -/
theorem lower_append_mem_pastTenses_iff {after : List Char} (hcased : meetsCased after = true)
    (hsigma : 'Σ' ∉ after)
    (hform : ∀ verb, verb ++ lower after ∈ pastTenses verb) (cs : List Char) :
    lower (cs ++ after) ∈ pastTenses (lower cs) ↔ ¬ EndsInSigma [] cs := by
  constructor
  · intro hmem hends
    exact hends.not_pastTense hcased hmem
  · intro hends
    rw [lower_append_of_no_sigma hsigma, lowerWithin_eq_of_not_endsInSigma hends]
    exact hform _

/-! ## a doubled last letter -/

theorem lower_concat (front : List Char) (last : Char) :
    lower (front ++ [last]) = lowerWithin [] front [last] ++ lowerAt front.reverse last [] := by
  rw [lower_append, lowerFrom, lowerFrom, List.append_nil]

/-- the small letter of the last letter of a verb, there and when it is doubled -/
theorem exists_small_last {front : List Char} {last : Char}
    (hends : ¬ EndsInSigma [] (front ++ [last])) (hlast : last ≠ 'İ') (before : List Char) :
    ∃ small, lowerAt front.reverse last [] = [small] ∧
      lowerAt before last ['e', 'd'] = [small] := by
  by_cases hsigma : last = 'Σ'
  · subst hsigma
    have hfront : meetsCased front.reverse = false := by
      refine Bool.eq_false_iff.mpr fun hfront => hends ⟨front, [], rfl, rfl, ?_⟩
      rw [List.append_nil]
      exact hfront
    refine ⟨'σ', ?_, ?_⟩
    · rw [lowerAt, if_pos rfl, hfront]
      rfl
    · rw [lowerAt, if_pos rfl, ending_facts.1.2.1, Bool.not_true, Bool.and_false]
      rfl
  · refine ⟨smallLetter last, ?_, ?_⟩
    · rw [lowerAt, if_neg hsigma, if_neg hlast]
    · rw [lowerAt, if_neg hsigma, if_neg hlast]

/-- after a final sigma, marks aside, the doubled last character is a letter or passed over -/
theorem EndsInSigma.meetsCased_doubled {front : List Char} {last : Char}
    (h : EndsInSigma [] (front ++ [last])) : meetsCased [last, 'e', 'd'] = true := by
  obtain ⟨start, marks, hcs, hmarks, -⟩ := h
  rcases List.eq_nil_or_concat marks with rfl | ⟨others, mark, rfl⟩
  · obtain ⟨-, hlast⟩ := List.append_inj' hcs rfl
    obtain ⟨rfl, -⟩ := List.cons.inj hlast
    exact meetsCased_sigma _
  · rw [List.concat_eq_append, ← List.cons_append, ← List.append_assoc] at hcs
    obtain ⟨-, hlast⟩ := List.append_inj' hcs rfl
    obtain ⟨rfl, -⟩ := List.cons.inj hlast
    rw [List.concat_eq_append, List.all_append, Bool.and_eq_true] at hmarks
    have hmark := List.all_eq_true.mp hmarks.2 last List.mem_cons_self
    rw [meetsCased_cons_of_ignorable hmark]
    exact ending_facts.1.2.1

theorem lower_doubled_mem_pastTenses_iff (front : List Char) (last : Char) :
    lower (front ++ [last] ++ [last, 'e', 'd']) ∈ pastTenses (lower (front ++ [last])) ↔
      ¬ EndsInSigma [] (front ++ [last]) ∧ last ≠ 'İ' := by
  by_cases hends : EndsInSigma [] (front ++ [last])
  · refine ⟨fun hmem => ?_, fun h => absurd hends h.1⟩
    exact absurd hmem (hends.not_pastTense hends.meetsCased_doubled)
  · rw [lower_append (front ++ [last]), lowerWithin_eq_of_not_endsInSigma hends, ← lower, lowerFrom,
      lowerFrom_of_no_sigma (by decide), ending_facts.2.2.1]
    by_cases hlast : last = 'İ'
    · -- two small characters for the letter: the word is too long
      refine ⟨fun hmem => ?_, fun h => absurd hlast h.2⟩
      have hlength := length_le_of_mem_pastTenses hmem
      rw [hlast, lowerAt, if_neg (by decide), if_pos rfl, List.length_append] at hlength
      simp at hlength
    · refine ⟨fun _ => ⟨hends, hlast⟩, fun _ => ?_⟩
      obtain ⟨small, hsmall, hdoubled⟩ :=
        exists_small_last hends hlast (front ++ [last]).reverse
      refine (mem_pastTenses_iff _ _).mpr (.inr (.inr (.inl ⟨small, ?_, ?_⟩)))
      · rw [lower_concat, hsmall, List.getLast?_concat]
      · rw [hdoubled]
        rfl

/-! ## a final y -/

theorem lower_ied_mem_pastTenses {y : Char} (hy : y = 'y' ∨ y = 'Y') (stem : List Char) :
    lower (stem ++ ['i', 'e', 'd']) ∈ pastTenses (lower (stem ++ [y])) := by
  have hfacts : meetsCased [y] = true ∧ 'Σ' ∉ [y] ∧ lower [y] = ['y'] := by
    rcases hy with rfl | rfl <;> decide +kernel
  obtain ⟨hcased, hsigma, hsmall⟩ := hfacts
  refine (mem_pastTenses_iff _ _).mpr (.inr (.inr (.inr ⟨lowerWithin [] stem [y], ?_, ?_⟩)))
  · rw [lower_append_of_no_sigma hsigma, hsmall]
  · rw [lower_append_of_no_sigma (by decide), ending_facts.2.2.2,
      lowerWithin_congr (ending_facts.1.2.2.trans hcased.symm)]

/-! ## loops -/

/-- a word reads as a past tense of the verb, and wherever it ends a loop of the verb, an end of
that loop is found -/
structure Closes (verb verbed : String) : Prop where
  past : isPastTense verbed verb = true
  found : ∀ (body : List Statement) (until? : Option String) (rest : List Statement),
    ∃ cut, cutLoop? verb (body ++ .loopEnd verbed until? :: rest) = some cut

/-- some statement closes the loop, this one or one before it -/
theorem exists_cutLoop? {verb verbed : String} (h : isPastTense verbed verb = true)
    (body : List Statement) (until? : Option String) (rest : List Statement) :
    ∃ cut, cutLoop? verb (body ++ .loopEnd verbed until? :: rest) = some cut := by
  induction body with
  | nil =>
    refine ⟨⟨[], until?, rest⟩, ?_⟩
    exact @cutLoop?_append verb verbed until? [] rest (fun _ hs => nomatch hs) h
  | cons s body ih =>
    cases hs : s.closes verb with
    | true =>
      cases s with
      | act a => cases hs
      | loopStart v i => cases hs
      | loopEnd w i? =>
        refine ⟨⟨[], i?, body ++ .loopEnd verbed until? :: rest⟩, ?_⟩
        exact @cutLoop?_append verb w i? [] _ (fun _ hs => nomatch hs) hs
    | false =>
      obtain ⟨cut, hcut⟩ := ih
      refine ⟨{ cut with body := s :: cut.body }, ?_⟩
      rw [List.cons_append, cutLoop?_cons_of_open hs, hcut]
      rfl

theorem closes_iff (verb verbed : String) : Closes verb verbed ↔ isPastTense verbed verb = true :=
  ⟨fun h => h.past, fun h => ⟨h, exists_cutLoop? h⟩⟩

/-- with `d` or `ed` a verb gets a past tense that closes its loops iff no sigma ends it; with its
last letter doubled and `ed`, iff that letter is no dotted capital I either; and with `ied` for a
final `y`, always -/
theorem regular_closes_iff (verb : String) :
    (Closes verb (verb ++ "d") ↔ ¬ EndsInSigma [] verb.toList) ∧
    (Closes verb (verb ++ "ed") ↔ ¬ EndsInSigma [] verb.toList) ∧
    (∀ last, verb.toList.getLast? = some last →
      (Closes verb (verb.push last ++ "ed") ↔ ¬ EndsInSigma [] verb.toList ∧ last ≠ 'İ')) ∧
    ∀ stem, verb = stem ++ "y" ∨ verb = stem ++ "Y" → Closes verb (stem ++ "ied") := by
  refine ⟨?_, ?_, fun last hlast => ?_, fun stem hverb => ?_⟩
  · rw [closes_iff, isPastTense_iff, String.toList_append]
    refine lower_append_mem_pastTenses_iff ending_facts.1.1 (by decide) (fun cs => ?_) _
    exact (mem_pastTenses_iff _ _).mpr (.inl (congrArg (cs ++ ·) ending_facts.2.1))
  · rw [closes_iff, isPastTense_iff, String.toList_append]
    refine lower_append_mem_pastTenses_iff ending_facts.1.2.1 (by decide) (fun cs => ?_) _
    exact (mem_pastTenses_iff _ _).mpr (.inr (.inl (congrArg (cs ++ ·) ending_facts.2.2.1)))
  · obtain ⟨front, hfront⟩ := List.getLast?_eq_some_iff.mp hlast
    have hword : (verb.push last ++ "ed").toList = front ++ [last] ++ [last, 'e', 'd'] := by
      rw [String.toList_append, String.toList_push, hfront, List.append_assoc]
      rfl
    rw [closes_iff, isPastTense_iff, hword, hfront]
    exact lower_doubled_mem_pastTenses_iff front last
  · rw [closes_iff, isPastTense_iff, String.toList_append]
    rcases hverb with rfl | rfl
    · rw [String.toList_append]
      exact lower_ied_mem_pastTenses (.inl rfl) _
    · rw [String.toList_append]
      exact lower_ied_mem_pastTenses (.inr rfl) _

/-- a loop that is read from `ΑΣ the x` is not closed by `Wait until ΑΣd`, nor is one of `Tİ` by
`Wait until Tİİed` -/
theorem sigma_loop_not_closed :
    (Statement.decode "ΑΣ" "the x" = .ok (.loopStart "ΑΣ" "x") ∧
      Statement.decode "Wait" "until ΑΣd" = .ok (.loopEnd "ΑΣd" none)) ∧
    cutLoop? "ΑΣ" [.loopEnd "ΑΣd" none] = none ∧ cutLoop? "Tİ" [.loopEnd "Tİİed" none] = none := by
  refine ⟨⟨rfl, rfl⟩, ?_, ?_⟩ <;> decide +kernel

end Cookery

import Cookery.Text.Lowercase

/-!
# Small letters of a text with something after it

The small letters of a text depend on what follows it in one place only: at a capital sigma that
ends the text, marks aside.  At the end of a word it is `ς`, and with a letter after it `σ`.

* `meetsCased_append`      which letter comes first in a longer text;
* `lowerWithin`            the small letters of a text between two others;
* `lowerFrom_append`, `lower_append`   a text and what follows it, each in small letters;
* `lowerWithin_congr`, `lowerWithin_of_no_sigma`   of the text after it only the first letter matters,
                           and without a sigma nothing does;
* `EndsInSigma`            a text ends in a sigma that is written `ς`;
* `lowerWithin_eq_of_not_endsInSigma`, `EndsInSigma.lowerWithin_eq`   it does not change, or just this
                           sigma does.
-/

namespace Cookery

/-! ## the first letter -/

theorem meetsCased_cons_of_ignorable {c : Char} (h : isCaseIgnorable c = true) (cs : List Char) :
    meetsCased (c :: cs) = meetsCased cs := by
  rw [meetsCased, List.dropWhile_cons_of_pos h, meetsCased]

theorem meetsCased_cons_of_not_ignorable {c : Char} (h : isCaseIgnorable c = false)
    (cs : List Char) : meetsCased (c :: cs) = isCased c := by
  have hc : ¬ isCaseIgnorable c = true := by
    rw [h]
    exact Bool.false_ne_true
  rw [meetsCased, List.dropWhile_cons_of_neg hc]

/-- marks are passed over, and anything else hides what follows -/
theorem meetsCased_append (cs after : List Char) :
    meetsCased (cs ++ after) =
      if cs.all isCaseIgnorable then meetsCased after else meetsCased cs := by
  induction cs with
  | nil => rfl
  | cons c cs ih =>
    rw [List.cons_append, List.all_cons]
    cases hc : isCaseIgnorable c with
    | true =>
      rw [meetsCased_cons_of_ignorable hc, meetsCased_cons_of_ignorable hc, ih]
      rfl
    | false =>
      rw [meetsCased_cons_of_not_ignorable hc, meetsCased_cons_of_not_ignorable hc]
      rfl

theorem sigma_facts : isCaseIgnorable 'Σ' = false ∧ isCased 'Σ' = true := by decide +kernel

theorem meetsCased_sigma (cs : List Char) : meetsCased ('Σ' :: cs) = true := by
  rw [meetsCased_cons_of_not_ignorable sigma_facts.1, sigma_facts.2]

/-! ## a text between two others -/

/-- the small letters of a text between `before` (last character first) and `after` -/
def lowerWithin (before : List Char) : (cs after : List Char) → List Char
  | [], _ => []
  | c :: cs, after => lowerAt before c (cs ++ after) ++ lowerWithin (c :: before) cs after

theorem lowerFrom_append (before cs after : List Char) :
    lowerFrom before (cs ++ after) =
      lowerWithin before cs after ++ lowerFrom (cs.reverse ++ before) after := by
  induction cs generalizing before with
  | nil => rfl
  | cons c cs ih =>
    rw [List.cons_append, lowerFrom, ih, lowerWithin, List.append_assoc, List.reverse_cons,
      List.append_assoc, List.singleton_append]

theorem lowerWithin_nil_right (before cs : List Char) :
    lowerWithin before cs [] = lowerFrom before cs := by
  have hall := lowerFrom_append before cs []
  rw [List.append_nil, lowerFrom, List.append_nil] at hall
  exact hall.symm

theorem lowerWithin_append (before as bs after : List Char) :
    lowerWithin before (as ++ bs) after =
      lowerWithin before as (bs ++ after) ++ lowerWithin (as.reverse ++ before) bs after := by
  induction as generalizing before with
  | nil => rfl
  | cons a as ih =>
    rw [List.cons_append, lowerWithin, lowerWithin, ih, List.append_assoc, List.append_assoc,
      List.reverse_cons, List.append_assoc, List.singleton_append]

/-- only a sigma has small letters by its place -/
theorem lowerAt_of_ne_sigma {c : Char} (h : c ≠ 'Σ') (before rest before' rest' : List Char) :
    lowerAt before c rest = lowerAt before' c rest' := by
  unfold lowerAt
  rw [if_neg h, if_neg h]

theorem lowerAt_congr {rest rest' : List Char} (h : meetsCased rest = meetsCased rest')
    (before : List Char) (c : Char) : lowerAt before c rest = lowerAt before c rest' := by
  unfold lowerAt
  rw [h]

theorem lowerWithin_congr {after after' : List Char} (h : meetsCased after = meetsCased after')
    (before cs : List Char) : lowerWithin before cs after = lowerWithin before cs after' := by
  induction cs generalizing before with
  | nil => rfl
  | cons c cs ih =>
    have hrest : meetsCased (cs ++ after) = meetsCased (cs ++ after') := by
      rw [meetsCased_append, meetsCased_append, h]
    rw [lowerWithin, lowerWithin, ih, lowerAt_congr hrest]

theorem lowerWithin_of_no_sigma {cs : List Char} (h : 'Σ' ∉ cs)
    (before after before' after' : List Char) :
    lowerWithin before cs after = lowerWithin before' cs after' := by
  induction cs generalizing before before' with
  | nil => rfl
  | cons c cs ih =>
    have hc : c ≠ 'Σ' := fun he => h (he ▸ List.mem_cons_self)
    rw [lowerWithin, lowerWithin, ih (fun hm => h (List.mem_cons_of_mem _ hm)) _ (c :: before'),
      lowerAt_of_ne_sigma hc _ _ before' (cs ++ after')]

theorem lowerFrom_of_no_sigma {cs : List Char} (h : 'Σ' ∉ cs) (before : List Char) :
    lowerFrom before cs = lower cs := by
  rw [← lowerWithin_nil_right, lowerWithin_of_no_sigma h _ _ [] [], lowerWithin_nil_right, lower]

theorem lower_append (cs after : List Char) :
    lower (cs ++ after) = lowerWithin [] cs after ++ lowerFrom cs.reverse after := by
  have happend := lowerFrom_append [] cs after
  rw [List.append_nil] at happend
  exact happend

/-- an ending without a sigma has its own small letters -/
theorem lower_append_of_no_sigma {after : List Char} (h : 'Σ' ∉ after) (cs : List Char) :
    lower (cs ++ after) = lowerWithin [] cs after ++ lower after := by
  rw [lower_append, lowerFrom_of_no_sigma h]

/-! ## a sigma at the end -/

/-- the last character of a text after `before` (last character first) is a sigma, marks aside, and
a letter stands before it -/
def EndsInSigma (before cs : List Char) : Prop :=
  ∃ front marks, cs = front ++ 'Σ' :: marks ∧ marks.all isCaseIgnorable = true ∧
    meetsCased (front.reverse ++ before) = true

theorem EndsInSigma.cons {before cs : List Char} {c : Char} (h : EndsInSigma (c :: before) cs) :
    EndsInSigma before (c :: cs) := by
  obtain ⟨front, marks, rfl, hmarks, hfront⟩ := h
  refine ⟨c :: front, marks, rfl, hmarks, ?_⟩
  rw [List.reverse_cons, List.append_assoc, List.singleton_append]
  exact hfront

/-- without such a sigma it does not matter what follows -/
theorem lowerWithin_eq_of_not_endsInSigma {before cs : List Char} (h : ¬ EndsInSigma before cs)
    (after : List Char) : lowerWithin before cs after = lowerFrom before cs := by
  induction cs generalizing before with
  | nil => rfl
  | cons c cs ih =>
    have hfirst : lowerAt before c (cs ++ after) = lowerAt before c cs := by
      by_cases hc : c = 'Σ'
      · cases hmarks : cs.all isCaseIgnorable with
        | true =>
          -- at the end of the text, but with no letter before it
          have hbefore : meetsCased before = false := by
            refine Bool.eq_false_iff.mpr fun hbefore => h ?_
            exact ⟨[], cs, by rw [hc]; rfl, hmarks, hbefore⟩
          unfold lowerAt
          rw [hbefore, Bool.false_and, Bool.false_and]
        | false =>
          refine lowerAt_congr ?_ before c
          rw [meetsCased_append, hmarks]
          rfl
      · exact lowerAt_of_ne_sigma hc _ _ _ _
    rw [lowerWithin, lowerFrom, hfirst, ih fun hrest => h hrest.cons]

/-- with such a sigma, a letter that follows changes it and nothing else -/
theorem EndsInSigma.lowerWithin_eq {before cs : List Char} (h : EndsInSigma before cs)
    {after : List Char} (hafter : meetsCased after = true) :
    ∃ a m, lowerFrom before cs = a ++ 'ς' :: m ∧ lowerWithin before cs after = a ++ 'σ' :: m := by
  obtain ⟨front, marks, rfl, hmarks, hfront⟩ := h
  have hmark : 'Σ' ∉ marks := by
    intro hmem
    have hignorable := List.all_eq_true.mp hmarks 'Σ' hmem
    rw [sigma_facts.1] at hignorable
    cases hignorable
  -- the three parts: the front sees the sigma, and the marks are no sigmas
  have hparts : ∀ ext, lowerWithin before (front ++ 'Σ' :: marks) ext =
      lowerWithin before front ['Σ'] ++
        (lowerAt (front.reverse ++ before) 'Σ' (marks ++ ext) ++ lowerWithin [] marks []) := by
    intro ext
    rw [lowerWithin_append, List.cons_append,
      lowerWithin_congr ((meetsCased_sigma (marks ++ ext)).trans (meetsCased_sigma []).symm),
      lowerWithin, lowerWithin_of_no_sigma hmark _ _ [] []]
  have hend : meetsCased (marks ++ []) = false := by
    rw [meetsCased_append, hmarks]
    rfl
  have hinside : meetsCased (marks ++ after) = true := by
    rw [meetsCased_append, hmarks, hafter]
    rfl
  refine ⟨lowerWithin before front ['Σ'], lowerWithin [] marks [], ?_, ?_⟩
  · rw [← lowerWithin_nil_right, hparts, lowerAt, if_pos rfl, hfront, hend]
    rfl
  · rw [hparts, lowerAt, if_pos rfl, hfront, hinside]
    rfl

end Cookery

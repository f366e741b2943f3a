import Cookery.Proofs.Statement.Places
import Cookery.Recipe.Printer

/-!
# The forms of the five verbs, written and read

* `whole?_bowl_text`     a bowl with any article and ordinal is read back;
* `count_bowl`           what is read as a bowl has one letter `o`;
* `cutAround?_append`    a text is cut at a place before which there is none to cut at;
* `putForm?_into`        a name and any bowl;
* `liquefyForm?_contents`, `pourForm?_transfer`, `timeText`, `stirForm?_time`, `stirForm?_bowl`
                         the other forms;
* `nthPlace`             the place that a container is printed with, and the forms with it:
                         `putForm?_append`, `liquefyForm?_nth`, `pourForm?_nth`, `stirForm?_nth`;
* `stirForm?_for`        a time alone.
-/

namespace Cookery

/-! ## containers -/

theorem toList_nthContainer (noun : String) (n : Nat) :
    (nthContainer noun n).toList =
      "the ".toList ++ (numeral (n + 1) ++ ("th ".toList ++ noun.toList)) := by
  unfold nthContainer numeral
  simp only [String.toList_append, List.append_assoc]

def numeralDigits (n : Nat) : Digits :=
  ⟨numeral n, numeral_ne_nil n, fun _ => isDigit_of_mem_numeral⟩

/-- what is printed before the noun of a container -/
def nthPlace (n : Nat) : Place := ⟨true, some ⟨numeralDigits (n + 1), .th⟩⟩

theorem toList_nthBowl (n : Nat) : (nthBowl n).toList = (nthPlace n).text .bowl := by
  unfold nthBowl
  rw [toList_nthContainer, ← List.append_assoc (numeral _)]
  rfl

theorem toList_nthDish (n : Nat) : (nthDish n).toList = (nthPlace n).text .dish := by
  unfold nthDish
  rw [toList_nthContainer, ← List.append_assoc (numeral _)]
  rfl

theorem containerNumber_numeral {n : Nat} (h : n < countMax) :
    containerNumber (some (numeral (n + 1))) = .ok n := by
  have hcount : countOf (numeral (n + 1)) = n + 1 := countOf_numeral h
  unfold containerNumber
  dsimp only
  rw [hcount, if_neg (Nat.succ_ne_zero n)]
  rfl

theorem lt_of_containerNumber {ds? : Option (List Char)} {n : Nat}
    (h : containerNumber ds? = .ok n) : n < countMax := by
  cases ds? with
  | none =>
    cases h
    decide
  | some ds =>
    have hle := countOf_le ds
    unfold containerNumber at h
    dsimp only at h
    split at h
    · cases h
    · rename_i hne
      cases h
      omega

/-! ## letters of a container -/

theorem count_ordinalText (o? : Option Ordinal) : (ordinalText o?).count 'o' = 0 := by
  cases o? with
  | none => rfl
  | some o =>
    have hdigits : o.digits.chars.count 'o' = 0 := by
      refine List.count_eq_zero.mpr fun hmem => ?_
      exact absurd (o.digits.digits 'o' hmem) (by decide)
    have hending : o.ending.text.count 'o' = 0 := by cases o.ending <;> decide
    rw [ordinalText, Ordinal.text, List.count_append, hdigits, hending]

theorem whole?_eq_some {α : Type} {found : Option (α × List Char)} {a : α}
    (h : whole? found = some a) : found = some (a, []) := by
  unfold whole? at h
  split at h
  · cases h
    rfl
  · cases h

theorem count_bowl {t : List Char} {ds? : Option (List Char)}
    (h : (whole? ∘ bowl?) t = some ds?) : t.count 'o' = 1 := by
  obtain ⟨p, -, rfl⟩ := @exists_of_container? .bowl _ _ _ (whole?_eq_some h)
  have hthe : (theText p.the).count 'o' = 0 := by cases p.the <;> decide
  rw [List.append_nil, Place.text, List.count_append, List.count_append, hthe, count_ordinalText]
  rfl

/-! ## putting -/

/-- a text is cut at the first place where it can be: where a front `n` without a line feed ends,
if it cannot be cut at any place inside `n` -/
theorem cutAround?_append {α : Type} {w : List Char} {f : List Char → Option α} {n t : List Char}
    {a : α} (hn : '\n' ∉ n) (ht : f t = some a)
    (hfirst : ∀ r, r ≠ [] → ∀ s, r ++ (w ++ t) = w ++ s → f s = none) (hw : w ≠ []) :
    cutAround? w f (n ++ (w ++ t)) = some (n, a) := by
  induction n with
  | nil =>
    cases w with
    | nil => exact absurd rfl hw
    | cons c w =>
      have hafter : (after? (c :: w) (c :: w ++ t)).bind f = some a := by
        rw [after?_append]
        exact ht
      rw [List.nil_append, List.cons_append, cutAround?, ← List.cons_append, hafter]
  | cons c n ih =>
    rw [List.mem_cons, not_or] at hn
    have hnone : (after? w (c :: n ++ (w ++ t))).bind f = none := by
      cases hs : after? w (c :: n ++ (w ++ t)) with
      | none => rfl
      | some s => exact hfirst (c :: n) (List.cons_ne_nil c n) s (after?_eq_some_iff.mp hs)
    rw [List.cons_append, cutAround?, ← List.cons_append, hnone, ih hn.2]
    dsimp only
    rw [if_neg (Ne.symm hn.1)]
    rfl

/-- no bowl starts inside the front of ` into the 3th mixing bowl`: it would have two letters `o` -/
theorem no_bowl_before {r t s : List Char} {ds? : Option (List Char)} (hr : r ≠ [])
    (ht : (whole? ∘ bowl?) t = some ds?) (h : r ++ (" into ".toList ++ t) = " into ".toList ++ s) :
    (whole? ∘ bowl?) s = none := by
  refine Option.eq_none_iff_forall_ne_some.mpr fun ds' hs => ?_
  have hcount := congrArg (List.count 'o') h
  rw [List.count_append, List.count_append, List.count_append, count_bowl ht,
    count_bowl hs] at hcount
  have hnone : 'o' ∉ r := List.count_eq_zero.mp (by omega)
  -- so `r` is a start of ` into ` that stops before its `o`, and a blank would stand inside a word
  match r with
  | [] => exact hr rfl
  | [_] => cases h
  | [_, _] => cases h
  | [_, _, _] => cases h
  | [_, _, _, _] => cases h
  | _ :: _ :: _ :: _ :: c :: r =>
    have hc : c = 'o' := by
      injection h with _ h
      injection h with _ h
      injection h with _ h
      injection h with _ h
      injection h
    exact hnone (by simp [hc])

theorem whole?_bowl_text (p : Place) :
    (whole? ∘ bowl?) (p.text .bowl) = some (ordinalDigits p.ordinal?) := by
  have h := container?_text p .bowl []
  rw [List.append_nil] at h
  show whole? (container? Noun.bowl.text (p.text .bowl)) = _
  rw [h]
  rfl

theorem putForm?_into {name t : List Char} {ds? : Option (List Char)} (hne : name ≠ [])
    (hline : '\n' ∉ name) (hbowl : (whole? ∘ bowl?) t = some ds?) :
    putForm? (name ++ (" into ".toList ++ t)) = some (name, ds?) := by
  have hcut := cutAround?_append hline hbowl
    (fun r hr s h => no_bowl_before hr hbowl h) (by decide)
  unfold putForm?
  rw [hcut]
  cases name with
  | nil => exact absurd rfl hne
  | cons c name => rfl

theorem putForm?_append {name : List Char} (hne : name ≠ []) (hline : '\n' ∉ name) (n : Nat) :
    putForm? (name ++ (" into ".toList ++ (nthBowl n).toList)) =
      some (name, some (numeral (n + 1))) := by
  rw [toList_nthBowl]
  exact putForm?_into hne hline (whole?_bowl_text (nthPlace n))

/-! ## liquefying and pouring -/

theorem noTFirst_contents (r : List Char) : NoTFirst ("contents of the ".toList ++ r) :=
  forall_mem_head_cons (· ≠ 't') (by decide) _

theorem liquefyForm?_contents (the : Bool) (ordinal? : Option Ordinal) :
    liquefyForm? (theText the ++
        ("contents of the ".toList ++ (ordinalText ordinal? ++ Noun.bowl.text))) =
      some (ordinalDigits ordinal?) := by
  have hnoun : NoDigitFirst Noun.bowl.text := noDigitFirst_cons (by decide) _
  unfold liquefyForm?
  rw [afterMaybe_theText the (noTFirst_contents _), after?_append, Option.bind_some,
    ordinalMaybe_ordinalText ordinal? hnoun]
  exact if_pos rfl

theorem liquefyForm?_nth (n : Nat) :
    liquefyForm? ("contents of ".toList ++ (nthBowl n).toList) = some (some (numeral (n + 1))) := by
  rw [toList_nthBowl]
  exact liquefyForm?_contents false (nthPlace n).ordinal?

theorem pourForm?_transfer (bowl dish : Place) :
    pourForm? ("contents of ".toList ++
        (bowl.text .bowl ++ (" into ".toList ++ dish.text .dish))) =
      some (ordinalDigits bowl.ordinal?, ordinalDigits dish.ordinal?) := by
  have hbowl : bowl? (bowl.text .bowl ++ (" into ".toList ++ dish.text .dish)) =
      some (ordinalDigits bowl.ordinal?, " into ".toList ++ dish.text .dish) :=
    container?_text bowl .bowl _
  have hdish : dish? (dish.text .dish) = some (ordinalDigits dish.ordinal?, []) := by
    have h := container?_text dish .dish []
    rw [List.append_nil] at h
    exact h
  unfold pourForm?
  rw [after?_append]
  dsimp only [Option.bind_eq_bind, Option.bind_some]
  rw [hbowl]
  dsimp only [Option.bind_some]
  rw [after?_append]
  dsimp only [Option.bind_some]
  rw [hdish]
  rfl

theorem pourForm?_nth (n m : Nat) :
    pourForm? ("contents of ".toList ++
        ((nthBowl n).toList ++ (" into ".toList ++ (nthDish m).toList))) =
      some (some (numeral (n + 1)), some (numeral (m + 1))) := by
  rw [toList_nthBowl, toList_nthDish]
  exact pourForm?_transfer (nthPlace n) (nthPlace m)

/-! ## stirring -/

def minuteText (plural : Bool) : List Char := if plural then " minutes".toList else " minute".toList

def timeText (minutes : Digits) (plural : Bool) : List Char :=
  "for ".toList ++ (minutes.chars ++ minuteText plural)

theorem noDigitFirst_minuteText (plural : Bool) : NoDigitFirst (minuteText plural) := by
  cases plural <;> exact noDigitFirst_cons (by decide) _

theorem minutes?_timeText (minutes : Digits) (plural : Bool) :
    minutes? (timeText minutes plural) = some minutes.chars := by
  have hunit : minuteText plural = " minute".toList ∨ minuteText plural = " minutes".toList := by
    cases plural
    · exact .inl rfl
    · exact .inr rfl
  unfold minutes? timeText
  rw [after?_append]
  dsimp only [Option.bind_eq_bind, Option.bind_some]
  rw [minutes.digitRun?_append (noDigitFirst_minuteText plural)]
  exact if_pos hunit

/-- a time is no bowl, so the first bowl is stirred -/
theorem stirForm?_time (minutes : Digits) (plural : Bool) :
    stirForm? (timeText minutes plural) = some (none, minutes.chars) := by
  have hbowl : bowl? (timeText minutes plural) = none := rfl
  unfold stirForm?
  rw [hbowl]
  dsimp only [Option.bind_none]
  rw [minutes?_timeText]
  rfl

theorem stirForm?_bowl (p : Place) (minutes : Digits) (plural : Bool) :
    stirForm? (p.text .bowl ++ (" ".toList ++ timeText minutes plural)) =
      some (ordinalDigits p.ordinal?, minutes.chars) := by
  have hbowl : bowl? (p.text .bowl ++ (" ".toList ++ timeText minutes plural)) =
      some (ordinalDigits p.ordinal?, " ".toList ++ timeText minutes plural) :=
    container?_text p .bowl _
  unfold stirForm?
  rw [hbowl]
  dsimp only [Option.bind_some]
  rw [after?_append]
  dsimp only [Option.map_some]
  rw [minutes?_timeText]
  rfl

theorem stirForm?_for (minutes : Nat) :
    stirForm? ("for ".toList ++ (numeral minutes ++ " minutes".toList)) =
      some (none, numeral minutes) :=
  stirForm?_time (numeralDigits minutes) true

theorem stirForm?_nth (n minutes : Nat) :
    stirForm? ((nthBowl n).toList ++
        (" ".toList ++ ("for ".toList ++ (numeral minutes ++ " minutes".toList)))) =
      some (some (numeral (n + 1)), numeral minutes) := by
  rw [toList_nthBowl]
  exact stirForm?_bowl (nthPlace n) (numeralDigits minutes) true

end Cookery

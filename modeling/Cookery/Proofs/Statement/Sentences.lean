import Cookery.Proofs.Statement.Forms
import Cookery.Proofs.Text.Trimming

/-!
# Sentences written and read

A statement is written as a word, a blank, an argument and a full stop.

* `Statement.Readable`           what a sentence can say of a statement;
* `Statement.word`, `Statement.argument`   the two parts of the sentence of a statement;
* `IsClause`                     texts that a sentence is divided into again;
* `ofSentence_clause`            the sentence of a readable statement is read back;
* `readable_of_ofSentence`       what is read is readable.
-/

namespace Cookery

/-! ## readable statements -/

/-- a text that can stand inside a sentence of a line -/
def Legible (cs : List Char) : Prop := ∀ c ∈ cs, c ≠ '.' ∧ c ≠ '\n'

instance (cs : List Char) : Decidable (Legible cs) :=
  List.decidableBAll (fun c => c ≠ '.' ∧ c ≠ '\n') cs

/-- a name, a verb or a closing word -/
structure IsPhrase (cs : List Char) : Prop where
  ne : cs ≠ []
  legible : Legible cs

def Action.Readable : Action → Prop
  | .put name bowl => IsPhrase name.toList ∧ NoBlankFirst name.toList ∧ bowl < countMax
  | .combine name bowl => IsPhrase name.toList ∧ NoBlankFirst name.toList ∧ bowl < countMax
  | .liquefy bowl => bowl < countMax
  | .pour bowl dish => bowl < countMax ∧ dish < countMax
  | .stir bowl minutes => bowl < countMax ∧ minutes ≤ countMax

def Statement.Readable : Statement → Prop
  | .act action => action.Readable
  | .loopStart verb ingredient =>
    (IsPhrase verb.toList ∧ Solid verb.toList ∧ Verb.ofWord? verb = none) ∧
      IsPhrase ingredient.toList ∧ NoBlankLast ingredient.toList ∧
        loopEndForm? ("the ".toList ++ ingredient.toList) = none
  | .loopEnd verbed ingredient? =>
    (IsPhrase verbed.toList ∧ Solid verbed.toList) ∧
      ∀ ingredient ∈ ingredient?, IsPhrase ingredient.toList ∧ NoBlankLast ingredient.toList

theorem legible_append {a b : List Char} (ha : Legible a) (hb : Legible b) : Legible (a ++ b) := by
  intro c hc
  rcases List.mem_append.mp hc with hc | hc
  · exact ha c hc
  · exact hb c hc

theorem legible_of_subset {a b : List Char} (hb : Legible b) (h : a ⊆ b) : Legible a :=
  fun c hc => hb c (h hc)

theorem Legible.newline {cs : List Char} (h : Legible cs) : '\n' ∉ cs :=
  fun hmem => (h _ hmem).2 rfl

theorem legible_numeral (n : Nat) : Legible (numeral n) := by
  intro c hc
  have hdigit := isDigit_of_mem_numeral hc
  constructor
  · rintro rfl
    exact absurd hdigit (by decide)
  · rintro rfl
    exact absurd hdigit (by decide)

theorem legible_nthContainer {noun : String} (h : Legible noun.toList) (n : Nat) :
    Legible (nthContainer noun n).toList := by
  rw [toList_nthContainer]
  have hth : Legible ("th ".toList ++ noun.toList) := legible_append (by decide) h
  exact legible_append (by decide) (legible_append (legible_numeral _) hth)

theorem legible_nthBowl (n : Nat) : Legible (nthBowl n).toList := legible_nthContainer (by decide) n
theorem legible_nthDish (n : Nat) : Legible (nthDish n).toList := legible_nthContainer (by decide) n

/-! ## the two parts of a sentence -/

def Action.verb : Action → Verb
  | .put _ _ => .put
  | .combine _ _ => .combine
  | .liquefy _ => .liquefy
  | .pour _ _ => .pour
  | .stir _ _ => .stir

def Action.argument : Action → List Char
  | .put name n => name.toList ++ (" into ".toList ++ (nthBowl n).toList)
  | .combine name n => name.toList ++ (" into ".toList ++ (nthBowl n).toList)
  | .liquefy n => "contents of ".toList ++ (nthBowl n).toList
  | .pour n m =>
    "contents of ".toList ++ ((nthBowl n).toList ++ (" into ".toList ++ (nthDish m).toList))
  | .stir n minutes =>
    (nthBowl n).toList ++
      (" ".toList ++ ("for ".toList ++ (numeral minutes ++ " minutes".toList)))

def Statement.word : Statement → String
  | .act action => action.verb.name
  | .loopStart verb _ => verb
  | .loopEnd _ _ => "Wait"

def Statement.argument : Statement → List Char
  | .act action => action.argument
  | .loopStart _ ingredient => "the ".toList ++ ingredient.toList
  | .loopEnd verbed none => "until ".toList ++ verbed.toList
  | .loopEnd verbed (some ingredient) =>
    ("the ".toList ++ ingredient.toList) ++ (' ' :: ("until ".toList ++ verbed.toList))

theorem Action.toList_sentence (a : Action) :
    a.sentence.toList = a.verb.name.toList ++ ' ' :: (a.argument ++ ['.']) := by
  cases a with
  | put name n =>
    show ("Put " ++ name ++ " into " ++ nthBowl n ++ ".").toList =
      "Put".toList ++ ' ' :: (name.toList ++ (" into ".toList ++ (nthBowl n).toList) ++ ['.'])
    simp only [String.toList_append, List.append_assoc]
    rfl
  | combine name n =>
    show ("Combine " ++ name ++ " into " ++ nthBowl n ++ ".").toList =
      "Combine".toList ++ ' ' :: (name.toList ++ (" into ".toList ++ (nthBowl n).toList) ++ ['.'])
    simp only [String.toList_append, List.append_assoc]
    rfl
  | liquefy n =>
    show ("Liquefy contents of " ++ nthBowl n ++ ".").toList =
      "Liquefy".toList ++ ' ' :: ("contents of ".toList ++ (nthBowl n).toList ++ ['.'])
    simp only [String.toList_append, List.append_assoc]
    rfl
  | pour n m =>
    show ("Pour contents of " ++ nthBowl n ++ " into " ++ nthDish m ++ ".").toList =
      "Pour".toList ++ ' ' :: ("contents of ".toList ++
        ((nthBowl n).toList ++ (" into ".toList ++ (nthDish m).toList)) ++ ['.'])
    simp only [String.toList_append, List.append_assoc]
    rfl
  | stir n minutes =>
    show ("Stir " ++ nthBowl n ++ " for " ++ toString minutes ++ " minutes.").toList =
      "Stir".toList ++ ' ' :: ((nthBowl n).toList ++
        (" ".toList ++ ("for ".toList ++ (numeral minutes ++ " minutes".toList))) ++ ['.'])
    simp only [String.toList_append, List.append_assoc]
    rfl

theorem Statement.toList_sentence (st : Statement) :
    st.sentence.toList = st.word.toList ++ ' ' :: (st.argument ++ ['.']) := by
  match st with
  | .act action => exact action.toList_sentence
  | .loopStart verb ingredient =>
    show (verb ++ " the " ++ ingredient ++ ".").toList =
      verb.toList ++ ' ' :: ("the ".toList ++ ingredient.toList ++ ['.'])
    simp only [String.toList_append, List.append_assoc]
    rfl
  | .loopEnd verbed none =>
    show ("Wait until " ++ verbed ++ ".").toList =
      "Wait".toList ++ ' ' :: ("until ".toList ++ verbed.toList ++ ['.'])
    simp only [String.toList_append, List.append_assoc]
    rfl
  | .loopEnd verbed (some ingredient) =>
    show ("Wait the " ++ ingredient ++ " until " ++ verbed ++ ".").toList =
      "Wait".toList ++ ' ' :: ("the ".toList ++ ingredient.toList ++
        (' ' :: ("until ".toList ++ verbed.toList)) ++ ['.'])
    simp only [String.toList_append, List.append_assoc]
    rfl

/-! ## clauses -/

/-- a verb and its argument, as a sentence is divided -/
structure IsClause (word argument : List Char) : Prop where
  word_phrase : IsPhrase word
  word_solid : Solid word
  argument_phrase : IsPhrase argument
  argument_first : NoBlankFirst argument
  argument_last : NoBlankLast argument

namespace IsClause

variable {word argument : List Char}

theorem legible (h : IsClause word argument) : Legible (word ++ ' ' :: argument) :=
  legible_append h.word_phrase.legible
    (legible_append (by decide : Legible [' ']) h.argument_phrase.legible)

theorem ofSentence_eq (h : IsClause word argument) :
    Statement.ofSentence (word ++ ' ' :: argument) =
      Statement.decode (String.ofList word) (String.ofList argument) := by
  have hrest : ∀ c ∈ (' ' :: argument).head?, isBlank c = true :=
    forall_mem_head_cons (isBlank · = true) (by decide) argument
  unfold Statement.ofSentence
  rw [h.word_solid.takeWhile_append hrest, h.word_solid.dropWhile_append hrest,
    trim_cons_of_blank (by decide),
    trim_eq_self h.argument_first h.argument_last]

/-- a clause with a full stop is one sentence -/
theorem sentences_eq (h : IsClause word argument) :
    sentences (word ++ ' ' :: (argument ++ ['.'])) = [word ++ ' ' :: argument] := by
  have hcut : (word ++ ' ' :: (argument ++ ['.'])).splitOn '.' = [word ++ ' ' :: argument, []] := by
    have hstop : '.' ∉ word ++ ' ' :: argument := fun hmem => (h.legible '.' hmem).1 rfl
    rw [← List.cons_append, ← List.append_assoc,
      List.splitOn_append_cons_self_of_not_mem hstop, List.splitOn_nil]
  have hfirst : NoBlankFirst (word ++ ' ' :: argument) :=
    noBlankFirst_append h.word_solid.noBlankFirst h.word_phrase.ne _
  have hlast : NoBlankLast (word ++ ' ' :: argument) := by
    rw [← List.singleton_append, ← List.append_assoc]
    exact noBlankLast_append h.argument_last h.argument_phrase.ne _
  unfold sentences
  rw [hcut, List.map_cons, List.map_cons, trim_eq_self hfirst hlast]
  cases hword : word with
  | nil => exact absurd hword h.word_phrase.ne
  | cons c cs => rfl

end IsClause

/-! ## the sentence of a readable statement -/

theorem noBlankLast_nthContainer {noun : String} (h : NoBlankLast noun.toList)
    (hne : noun.toList ≠ []) (n : Nat) : NoBlankLast (nthContainer noun n).toList := by
  rw [toList_nthContainer, ← List.append_assoc, ← List.append_assoc]
  exact noBlankLast_append h hne _

theorem nthContainer_ne_nil (noun : String) (n : Nat) : (nthContainer noun n).toList ≠ [] := by
  rw [toList_nthContainer]
  exact List.cons_ne_nil _ _

theorem noBlankLast_nthBowl (n : Nat) : NoBlankLast (nthBowl n).toList :=
  noBlankLast_nthContainer (by decide) (by decide) n

theorem noBlankLast_nthDish (n : Nat) : NoBlankLast (nthDish n).toList :=
  noBlankLast_nthContainer (by decide) (by decide) n

theorem Verb.name_facts (v : Verb) :
    IsPhrase v.name.toList ∧ Solid v.name.toList ∧ Verb.ofWord? v.name = some v := by
  cases v <;> exact ⟨⟨by decide, by decide⟩, by decide, by decide⟩

/-- any other word starts or ends a loop -/
theorem Verb.ofWord?_eq_none_iff (word : String) :
    Verb.ofWord? word = none ↔
      word ∉ ["Put", "Combine", "Liquefy", "Liquify", "Pour", "Stir"] := by
  constructor
  · intro h hmem
    have hverbs : ∀ w ∈ ["Put", "Combine", "Liquefy", "Liquify", "Pour", "Stir"],
        Verb.ofWord? w ≠ none := by decide
    exact hverbs word hmem h
  · intro h
    simp only [List.mem_cons, List.not_mem_nil, or_false, not_or] at h
    obtain ⟨hput, hcombine, hliquefy, hliquify, hpour, hstir⟩ := h
    unfold Verb.ofWord?
    rw [if_neg hput, if_neg hcombine, if_neg (not_or.mpr ⟨hliquefy, hliquify⟩), if_neg hpour,
      if_neg hstir]

/-- a name that starts an argument, and what follows it -/
theorem isClause_append {word name tail : List Char} (hword : IsPhrase word) (hsolid : Solid word)
    (hname : IsPhrase name) (hfirst : NoBlankFirst name) (htail : IsPhrase tail)
    (hlast : NoBlankLast tail) : IsClause word (name ++ tail) where
  word_phrase := hword
  word_solid := hsolid
  argument_phrase :=
    ⟨List.append_ne_nil_of_left_ne_nil hname.ne _, legible_append hname.legible htail.legible⟩
  argument_first := noBlankFirst_append hfirst hname.ne _
  argument_last := noBlankLast_append hlast htail.ne _

/-- ` into the 3th mixing bowl` after a name -/
theorem isClause_into {word name : List Char} (hword : IsPhrase word) (hsolid : Solid word)
    (hname : IsPhrase name) (hfirst : NoBlankFirst name) (n : Nat) :
    IsClause word (name ++ (" into ".toList ++ (nthBowl n).toList)) :=
  isClause_append hword hsolid hname hfirst
    ⟨List.cons_ne_nil _ _, legible_append (by decide) (legible_nthBowl n)⟩
    (noBlankLast_append (noBlankLast_nthBowl n) (nthContainer_ne_nil _ n) _)

theorem Action.isClause {a : Action} (h : a.Readable) :
    IsClause a.verb.name.toList a.argument := by
  obtain ⟨hword, hsolid, _⟩ := a.verb.name_facts
  cases a with
  | put name n => exact isClause_into hword hsolid h.1 h.2.1 n
  | combine name n => exact isClause_into hword hsolid h.1 h.2.1 n
  | liquefy n =>
    refine ⟨hword, hsolid, ⟨List.cons_ne_nil _ _, ?_⟩, ?_, ?_⟩
    · exact legible_append (by decide) (legible_nthBowl n)
    · exact noBlankFirst_append (by decide : NoBlankFirst "contents of ".toList) (by decide) _
    · exact noBlankLast_append (noBlankLast_nthBowl n) (nthContainer_ne_nil _ n) _
  | pour n m =>
    refine ⟨hword, hsolid, ⟨List.cons_ne_nil _ _, ?_⟩, ?_, ?_⟩
    · exact legible_append (by decide) (legible_append (legible_nthBowl n)
        (legible_append (by decide) (legible_nthDish m)))
    · exact noBlankFirst_append (by decide : NoBlankFirst "contents of ".toList) (by decide) _
    · show NoBlankLast ("contents of ".toList ++
        ((nthBowl n).toList ++ (" into ".toList ++ (nthDish m).toList)))
      rw [← List.append_assoc, ← List.append_assoc]
      exact noBlankLast_append (noBlankLast_nthDish m) (nthContainer_ne_nil _ m) _
  | stir n minutes =>
    have hthe : NoBlankFirst (nthBowl n).toList := by
      unfold nthBowl
      rw [toList_nthContainer]
      exact noBlankFirst_append (by decide : NoBlankFirst "the ".toList) (by decide) _
    refine ⟨hword, hsolid, ⟨?_, ?_⟩, ?_, ?_⟩
    · exact List.append_ne_nil_of_left_ne_nil (nthContainer_ne_nil _ n) _
    · exact legible_append (legible_nthBowl n) (legible_append (by decide)
        (legible_append (by decide) (legible_append (legible_numeral _) (by decide))))
    · exact noBlankFirst_append hthe (nthContainer_ne_nil _ n) _
    · show NoBlankLast ((nthBowl n).toList ++
        (" ".toList ++ ("for ".toList ++ (numeral minutes ++ " minutes".toList))))
      rw [← List.append_assoc, ← List.append_assoc, ← List.append_assoc]
      exact noBlankLast_append (by decide) (by decide) _

theorem wait_facts : IsPhrase "Wait".toList ∧ Solid "Wait".toList :=
  ⟨⟨by decide, by decide⟩, by decide⟩

theorem Statement.isClause {st : Statement} (h : st.Readable) :
    IsClause st.word.toList st.argument := by
  match st with
  | .act action => exact action.isClause h
  | .loopStart verb ingredient =>
    obtain ⟨⟨hverb, hsolid, _⟩, hname, hlast, _⟩ := h
    refine ⟨hverb, hsolid, ⟨List.cons_ne_nil _ _, ?_⟩, ?_, ?_⟩
    · exact legible_append (by decide) hname.legible
    · exact noBlankFirst_append (by decide : NoBlankFirst "the ".toList) (by decide) _
    · exact noBlankLast_append hlast hname.ne _
  | .loopEnd verbed none =>
    obtain ⟨⟨hword, hsolid⟩, _⟩ := h
    refine ⟨wait_facts.1, wait_facts.2, ⟨List.cons_ne_nil _ _, ?_⟩, ?_, ?_⟩
    · exact legible_append (by decide) hword.legible
    · exact noBlankFirst_append (by decide : NoBlankFirst "until ".toList) (by decide) _
    · exact noBlankLast_append hsolid.noBlankLast hword.ne _
  | .loopEnd verbed (some ingredient) =>
    obtain ⟨⟨hword, hsolid⟩, hname⟩ := h
    have hphrase := (hname ingredient rfl).1
    refine ⟨wait_facts.1, wait_facts.2, ⟨List.cons_ne_nil _ _, ?_⟩, ?_, ?_⟩
    · refine legible_append (legible_append (by decide) hphrase.legible) ?_
      have huntil : Legible ("until ".toList ++ verbed.toList) :=
        legible_append (by decide) hword.legible
      exact legible_append (by decide : Legible [' ']) huntil
    · have hthe := noBlankFirst_append (by decide : NoBlankFirst "the ".toList) (by decide)
        ingredient.toList
      exact noBlankFirst_append hthe (List.cons_ne_nil _ _) _
    · show NoBlankLast (("the ".toList ++ ingredient.toList) ++
        (([' '] ++ "until ".toList) ++ verbed.toList))
      rw [← List.append_assoc]
      exact noBlankLast_append hsolid.noBlankLast hword.ne _

/-! ## reading the sentence -/

theorem Action.action?_argument {a : Action} (h : a.Readable) :
    a.verb.action? a.argument = some (.ok a) := by
  cases a with
  | put name n =>
    unfold Action.verb Action.argument Verb.action?
    dsimp only
    rw [putForm?_append h.1.ne h.1.legible.newline, Option.map_some]
    dsimp only
    rw [containerNumber_numeral h.2.2, String.ofList_toList]
    rfl
  | combine name n =>
    unfold Action.verb Action.argument Verb.action?
    dsimp only
    rw [putForm?_append h.1.ne h.1.legible.newline, Option.map_some]
    dsimp only
    rw [containerNumber_numeral h.2.2, String.ofList_toList]
    rfl
  | liquefy n =>
    have hn : n < countMax := h
    unfold Action.verb Action.argument Verb.action?
    dsimp only
    rw [liquefyForm?_nth, Option.map_some, containerNumber_numeral hn]
    rfl
  | pour n m =>
    unfold Action.verb Action.argument Verb.action?
    dsimp only
    rw [pourForm?_nth, Option.map_some]
    dsimp only
    rw [containerNumber_numeral h.1, containerNumber_numeral h.2]
    rfl
  | stir n minutes =>
    unfold Action.verb Action.argument Verb.action?
    dsimp only
    rw [stirForm?_nth, Option.map_some]
    dsimp only
    rw [containerNumber_numeral h.1, countOf_numeral h.2]
    rfl

theorem loopStartForm?_eq_some_iff {cs : List Char} {name : String} :
    loopStartForm? cs = some name ↔
      cs = "the ".toList ++ name.toList ∧ name.toList ≠ [] ∧ '\n' ∉ name.toList := by
  unfold loopStartForm?
  constructor
  · intro h
    split at h
    · cases h
    · rename_i chars hne hafter
      split at h
      · cases h
      · rename_i hline
        cases h
        rw [List.contains_eq_mem, decide_eq_true_eq] at hline
        have hchars : (String.ofList chars).toList = chars := String.toList_ofList
        rw [hchars]
        exact ⟨after?_eq_some_iff.mp hafter, hne, hline⟩
    · cases h
  · rintro ⟨rfl, hne, hline⟩
    have hcontains : name.toList.contains '\n' = false := by
      rw [List.contains_eq_mem, decide_eq_false_iff_not]
      exact hline
    rw [after?_append]
    cases hn : name.toList with
    | nil => exact absurd hn hne
    | cons c cs =>
      rw [hn] at hcontains
      dsimp only
      rw [hcontains, if_neg Bool.false_ne_true, ← hn, String.ofList_toList]

theorem untilIngredient_the {name : String} (h : IsPhrase name.toList)
    (hlast : NoBlankLast name.toList) :
    untilIngredient ("the ".toList ++ name.toList) = some name := by
  have hthe : NoBlankFirst "the ".toList := by decide
  have hfirst := noBlankFirst_append hthe (by decide) name.toList
  unfold untilIngredient
  rw [trim_eq_self hfirst (noBlankLast_append hlast h.ne _), afterMaybe_append]
  cases hn : name.toList with
  | nil => exact absurd hn h.ne
  | cons c cs =>
    dsimp only
    rw [← hn, String.ofList_toList]

/-- the last word of an argument, and what stands before it, last character first -/
theorem loopEndForm?_append {verbed : String} (hne : verbed.toList ≠ [])
    (hsolid : Solid verbed.toList) (front : List Char) :
    loopEndForm? (front ++ ("until ".toList ++ verbed.toList)) =
      match front.reverse with
      | [] => some (verbed, none)
      | c :: cs =>
        if isBlank c && !cs.contains '\n' then some (verbed, untilIngredient cs.reverse)
        else none := by
  have hword : Solid verbed.toList.reverse := fun c hc => hsolid c (List.mem_reverse.mp hc)
  have hrest : ∀ c ∈ ("until ".toList.reverse ++ front.reverse).head?, isBlank c = true :=
    forall_mem_head_cons (isBlank · = true) (by decide : isBlank ' ' = true) _
  have hreverse : (front ++ ("until ".toList ++ verbed.toList)).reverse =
      verbed.toList.reverse ++ ("until ".toList.reverse ++ front.reverse) := by
    rw [List.reverse_append, List.reverse_append, List.append_assoc]
  unfold loopEndForm?
  rw [hreverse, hword.takeWhile_append hrest, hword.dropWhile_append hrest, after?_append]
  cases hv : verbed.toList.reverse with
  | nil => exact absurd (List.reverse_eq_nil_iff.mp hv) hne
  | cons c cs =>
    dsimp only
    rw [← hv, List.reverse_reverse, String.ofList_toList]
    cases front.reverse <;> rfl

theorem decode_act {action : Action} {argument : List Char}
    (h : action.verb.action? argument = some (.ok action)) :
    Statement.decode action.verb.name (String.ofList argument) = .ok (.act action) := by
  unfold Statement.decode
  rw [String.toList_ofList, action.verb.name_facts.2.2]
  dsimp only
  rw [h]
  rfl

theorem decode_loopStart {verb ingredient : String} (hverb : Verb.ofWord? verb = none)
    (hname : IsPhrase ingredient.toList)
    (hend : loopEndForm? ("the ".toList ++ ingredient.toList) = none) :
    Statement.decode verb (String.ofList ("the ".toList ++ ingredient.toList)) =
      .ok (.loopStart verb ingredient) := by
  unfold Statement.decode
  rw [String.toList_ofList, hverb]
  dsimp only
  rw [hend]
  dsimp only
  rw [loopStartForm?_eq_some_iff.mpr ⟨rfl, hname.ne, hname.legible.newline⟩]

theorem decode_loopEnd {verbed : String} {ingredient? : Option String} {argument : List Char}
    (hend : loopEndForm? argument = some (verbed, ingredient?)) :
    Statement.decode "Wait" (String.ofList argument) = .ok (.loopEnd verbed ingredient?) := by
  have hverb : Verb.ofWord? "Wait" = none := by decide
  unfold Statement.decode
  rw [String.toList_ofList, hverb]
  dsimp only
  rw [hend]

theorem decode_argument {st : Statement} (h : st.Readable) :
    Statement.decode st.word (String.ofList st.argument) = .ok st := by
  match st with
  | .act action => exact decode_act (Action.action?_argument h)
  | .loopStart verb ingredient =>
    obtain ⟨⟨_, _, hverb⟩, hname, _, hend⟩ := h
    exact decode_loopStart hverb hname hend
  | .loopEnd verbed none =>
    obtain ⟨⟨hword, hsolid⟩, _⟩ := h
    exact decode_loopEnd (loopEndForm?_append hword.ne hsolid [])
  | .loopEnd verbed (some ingredient) =>
    obtain ⟨⟨hword, hsolid⟩, hname⟩ := h
    obtain ⟨hphrase, hlast⟩ := hname ingredient rfl
    refine decode_loopEnd ?_
    have hend := loopEndForm?_append hword.ne hsolid (("the ".toList ++ ingredient.toList) ++ [' '])
    have hline : ("the ".toList ++ ingredient.toList).reverse.contains '\n' = false := by
      rw [List.contains_eq_mem, decide_eq_false_iff_not, List.mem_reverse]
      exact (legible_append (by decide) hphrase.legible).newline
    have hreverse : (("the ".toList ++ ingredient.toList) ++ [' ']).reverse =
        ' ' :: ("the ".toList ++ ingredient.toList).reverse := List.reverse_concat
    rw [hreverse, List.append_assoc] at hend
    dsimp only at hend
    rw [hline, List.reverse_reverse, untilIngredient_the hphrase hlast] at hend
    exact hend

/-- the sentence of a readable statement is one sentence, and it is read as that statement -/
theorem ofSentence_clause {st : Statement} (h : st.Readable) :
    (sentences st.sentence.toList).map Statement.ofSentence = [.ok st] := by
  have hclause := Statement.isClause h
  rw [st.toList_sentence, hclause.sentences_eq, List.map_singleton, hclause.ofSentence_eq,
    String.ofList_toList, decode_argument h]

/-! ## what is read is readable -/

theorem putForm?_eq_some {cs name : List Char} {ds? : Option (List Char)}
    (h : putForm? cs = some (name, ds?)) :
    name ≠ [] ∧ '\n' ∉ name ∧
      ∃ t, cs = name ++ (" into ".toList ++ t) ∧ (whole? ∘ bowl?) t = some ds? := by
  unfold putForm? at h
  split at h
  · cases h
  · rename_i hne
    obtain ⟨hline, t, ht, hbowl⟩ := append_of_cutAround? h
    refine ⟨fun he => ?_, hline, t, ?_, hbowl⟩
    · exact hne ds? (by rw [h, he])
    · rw [ht, List.append_assoc]

theorem readable_put {cs name : List Char} {ds? : Option (List Char)} {n : Nat}
    (hcs : Legible cs) (hfirst : NoBlankFirst cs) (h : putForm? cs = some (name, ds?))
    (hn : containerNumber ds? = .ok n) : (Action.put (String.ofList name) n).Readable := by
  obtain ⟨hne, -, t, rfl, -⟩ := putForm?_eq_some h
  have hstart := List.prefix_append name (" into ".toList ++ t)
  dsimp only [Action.Readable]
  rw [String.toList_ofList]
  exact ⟨⟨hne, legible_of_subset hcs hstart.subset⟩, hfirst.of_start hstart,
    lt_of_containerNumber hn⟩

theorem Verb.readable_of_action? {v : Verb} {cs : List Char} {a : Action} (hcs : Legible cs)
    (hfirst : NoBlankFirst cs) (h : v.action? cs = some (.ok a)) : a.Readable := by
  cases v with
  | put =>
    obtain ⟨⟨name, ds?⟩, hform, h⟩ := Option.map_eq_some_iff.mp h
    obtain ⟨n, hn, h⟩ := bind_eq_ok h
    cases h
    exact readable_put hcs hfirst hform hn
  | combine =>
    obtain ⟨⟨name, ds?⟩, hform, h⟩ := Option.map_eq_some_iff.mp h
    obtain ⟨n, hn, h⟩ := bind_eq_ok h
    cases h
    exact readable_put hcs hfirst hform hn
  | liquefy =>
    obtain ⟨ds?, _, h⟩ := Option.map_eq_some_iff.mp h
    obtain ⟨n, hn, h⟩ := bind_eq_ok h
    cases h
    exact lt_of_containerNumber hn
  | pour =>
    obtain ⟨⟨bowl, dish⟩, _, h⟩ := Option.map_eq_some_iff.mp h
    obtain ⟨n, hn, h⟩ := bind_eq_ok h
    obtain ⟨m, hm, h⟩ := bind_eq_ok h
    cases h
    exact ⟨lt_of_containerNumber hn, lt_of_containerNumber hm⟩
  | stir =>
    obtain ⟨⟨bowl, minutes⟩, _, h⟩ := Option.map_eq_some_iff.mp h
    obtain ⟨n, hn, h⟩ := bind_eq_ok h
    cases h
    exact ⟨lt_of_containerNumber hn, countOf_le minutes⟩

theorem untilIngredient_eq_some {cs : List Char} {name : String}
    (h : untilIngredient cs = some name) :
    name.toList ≠ [] ∧ NoBlankLast name.toList ∧ name.toList ⊆ cs := by
  have hsuffix : afterMaybe "the ".toList (trim cs) <:+ trim cs := by
    rcases afterMaybe_cases "the ".toList (trim cs) with he | he
    · exact ⟨"the ".toList, he.symm⟩
    · exact he.symm ▸ List.suffix_refl (trim cs)
  unfold untilIngredient at h
  split at h
  · cases h
  · rename_i hne
    cases h
    rw [String.toList_ofList]
    refine ⟨fun he => hne he, (noBlankLast_trim cs).of_suffix hsuffix, fun c hc => ?_⟩
    exact mem_of_mem_trim (hsuffix.subset hc)

/-- the end of a loop: its last word, and what stands before `until` -/
theorem append_of_loopEndForm? {cs : List Char} {verbed : String} {ingredient? : Option String}
    (h : loopEndForm? cs = some (verbed, ingredient?)) :
    verbed.toList ≠ [] ∧ Solid verbed.toList ∧
      ((cs = "until ".toList ++ verbed.toList ∧ ingredient? = none) ∨
        ∃ before blank, cs = (before ++ [blank]) ++ ("until ".toList ++ verbed.toList) ∧
          isBlank blank = true ∧ '\n' ∉ before ∧ ingredient? = untilIngredient before) := by
  -- the text is read from its end: the last word, and the rest before it
  have hcut : cs = (cs.reverse.dropWhile (!isBlank ·)).reverse ++
      (cs.reverse.takeWhile (!isBlank ·)).reverse := by
    rw [← List.reverse_append, List.takeWhile_append_dropWhile, List.reverse_reverse]
  have hsolid : Solid (cs.reverse.takeWhile (!isBlank ·)).reverse := by
    intro c hc
    have hword := of_mem_takeWhile (List.mem_reverse.mp hc)
    rw [Bool.not_eq_true'] at hword
    exact hword
  unfold loopEndForm? at h
  split at h
  · cases h
  · rename_i hne
    have hne : (cs.reverse.takeWhile (!isBlank ·)).reverse ≠ [] :=
      fun he => hne (List.reverse_eq_nil_iff.mp he)
    rw [← String.toList_ofList (l := (cs.reverse.takeWhile (!isBlank ·)).reverse)]
      at hcut hsolid hne
    split at h
    · cases h
    · rename_i huntil
      cases h
      rw [after?_eq_some_iff.mp huntil, List.append_nil, List.reverse_reverse] at hcut
      exact ⟨hne, hsolid, .inl ⟨hcut, rfl⟩⟩
    · rename_i c front huntil
      split at h
      · rename_i hfront
        cases h
        rw [Bool.and_eq_true, Bool.not_eq_true', List.contains_eq_mem,
          decide_eq_false_iff_not] at hfront
        rw [after?_eq_some_iff.mp huntil, List.reverse_append, List.reverse_cons,
          List.reverse_reverse, List.append_assoc] at hcut
        refine ⟨hne, hsolid, .inr ⟨front.reverse, c, hcut, hfront.1, fun hmem => ?_, rfl⟩⟩
        exact hfront.2 (List.mem_reverse.mp hmem)
      · cases h

theorem loopEndForm?_eq_some {cs : List Char} {verbed : String} {ingredient? : Option String}
    (h : loopEndForm? cs = some (verbed, ingredient?)) (hcs : Legible cs) :
    (Statement.loopEnd verbed ingredient?).Readable := by
  obtain ⟨hne, hsolid, ⟨rfl, rfl⟩ | ⟨before, blank, rfl, -, -, rfl⟩⟩ := append_of_loopEndForm? h
  · have hword := legible_of_subset hcs (List.subset_append_right _ _)
    exact ⟨⟨⟨hne, hword⟩, hsolid⟩, nofun⟩
  · have hword : Legible verbed.toList :=
      legible_of_subset hcs fun c hc => List.mem_append_right _ (List.mem_append_right _ hc)
    refine ⟨⟨⟨hne, hword⟩, hsolid⟩, fun name hname => ?_⟩
    obtain ⟨hname_ne, hlast, hsub⟩ := untilIngredient_eq_some hname
    refine ⟨⟨hname_ne, legible_of_subset hcs fun c hc => ?_⟩, hlast⟩
    exact List.mem_append_left _ (List.mem_append_left _ (hsub hc))

theorem readable_of_decode {word argument : List Char} {st : Statement} (hword : IsPhrase word)
    (hsolid : Solid word) (hargument : Legible argument) (hfirst : NoBlankFirst argument)
    (hlast : NoBlankLast argument)
    (h : Statement.decode (String.ofList word) (String.ofList argument) = .ok st) :
    st.Readable := by
  unfold Statement.decode at h
  rw [String.toList_ofList] at h
  split at h
  · split at h
    · rename_i v _ action haction
      cases action with
      | error fault => cases h
      | ok action =>
        cases h
        exact Verb.readable_of_action? hargument hfirst haction
    · cases h
  · rename_i hverb
    split at h
    · rename_i verbed ingredient? hend
      cases h
      exact loopEndForm?_eq_some hend hargument
    · rename_i hend
      split at h
      · rename_i ingredient hstart
        cases h
        obtain ⟨rfl, hne, _⟩ := loopStartForm?_eq_some_iff.mp hstart
        rw [← String.toList_ofList (l := word)] at hword hsolid
        refine ⟨⟨hword, hsolid, hverb⟩, ⟨hne, ?_⟩, ?_, hend⟩
        · exact legible_of_subset hargument (List.subset_append_right _ _)
        · exact hlast.of_suffix (List.suffix_append _ _)
      · cases h

theorem readable_of_ofSentence {line : String} (hline : '\n' ∉ line.toList) {cs : List Char}
    (hcs : cs ∈ sentences line.toList) {st : Statement}
    (h : Statement.ofSentence cs = .ok st) : st.Readable := by
  obtain ⟨hmem, hne⟩ := List.mem_filter.mp hcs
  obtain ⟨piece, hpiece, rfl⟩ := List.mem_map.mp hmem
  have hlegible : Legible (trim piece) := by
    intro c hc
    obtain ⟨hstop, hc'⟩ := of_mem_splitOn hpiece c (mem_of_mem_trim hc)
    exact ⟨hstop, fun he => hline (he ▸ hc')⟩
  have hword : IsPhrase ((trim piece).takeWhile (!isBlank ·)) := by
    refine ⟨?_, legible_of_subset hlegible (List.takeWhile_subset _)⟩
    cases hp : trim piece with
    | nil =>
      rw [hp] at hne
      cases hne
    | cons c cs =>
      have hc : isBlank c = false := noBlankFirst_trim piece c (by rw [hp]; rfl)
      rw [List.takeWhile_cons, hc]
      exact List.cons_ne_nil _ _
  have hsolid : Solid ((trim piece).takeWhile (!isBlank ·)) := by
    intro c hc
    have hc' := of_mem_takeWhile hc
    rw [Bool.not_eq_true'] at hc'
    exact hc'
  refine readable_of_decode hword hsolid (fun c hc => hlegible c ?_) (noBlankFirst_trim _)
    (noBlankLast_trim _) h
  exact (List.dropWhile_suffix _).subset (mem_of_mem_trim hc)

end Cookery

import Cookery.Proofs.Reading.Acceptance
import Cookery.Proofs.Reading.Readable

/-!
# Recipes that were read are well formed

What the cook, the printer and the look-ups rely on, for every preparation of a recipe: the keys of
its tables, the names and numbers in them, and the words of its statements.

* `Statement.containers`, `Statement.words`   the numbers and the words in a statement;
* `Statement.WellFormed`, `Preparation.WellFormed`, `Recipe.WellFormed`   what holds of them;
* `Statement.Readable.wellFormed`             readable statements are well formed;
* `wellFormed_of_parse`                       so is every recipe that was read.
-/

namespace Cookery

/-! ## statements -/

/-- the numbers of the containers that a statement names -/
def Statement.containers : Statement → List Nat
  | .act (.put _ bowl) => [bowl]
  | .act (.combine _ bowl) => [bowl]
  | .act (.liquefy bowl) => [bowl]
  | .act (.pour bowl dish) => [bowl, dish]
  | .act (.stir bowl _) => [bowl]
  | .loopStart _ _ => []
  | .loopEnd _ _ => []

/-- the words of a statement that are free: its ingredient, its verb, its closing word -/
def Statement.words : Statement → List String
  | .act (.put name _) => [name]
  | .act (.combine name _) => [name]
  | .act (.liquefy _) => []
  | .act (.pour _ _) => []
  | .act (.stir _ _) => []
  | .loopStart verb name => [verb, name]
  | .loopEnd verbed none => [verbed]
  | .loopEnd verbed (some name) => [verbed, name]

/-- a text that ends in a blank, `until`, a space and a last word -/
def IsLoopEnding (cs : List Char) : Prop :=
  ∃ front blank word, isBlank blank = true ∧ word ≠ [] ∧ Solid word ∧
    cs = front ++ blank :: ("until ".toList ++ word)

structure Statement.WellFormed (st : Statement) : Prop where
  containers : ∀ n ∈ st.containers, n ≤ 0xFFFFFFFFFFFFFFFE
  words : ∀ word ∈ st.words, word ≠ "" ∧ '.' ∉ word.toList ∧ '\n' ∉ word.toList
  verb : ∀ verb name, st = .loopStart verb name →
    Solid verb.toList ∧ verb ∉ ["Put", "Combine", "Liquefy", "Liquify", "Pour", "Stir"]
  argument : ∀ verb name, st = .loopStart verb name → ¬ IsLoopEnding ("the " ++ name).toList
  verbed : ∀ verbed name?, st = .loopEnd verbed name? → Solid verbed.toList

/-- the reader of loop ends finds every ending of a legible text -/
theorem not_isLoopEnding {cs : List Char} (h : loopEndForm? cs = none) (hcs : Legible cs) :
    ¬ IsLoopEnding cs := by
  rintro ⟨front, blank, word, hblank, hne, hsolid, rfl⟩
  obtain ⟨verbed, rfl⟩ : ∃ verbed : String, word = verbed.toList :=
    ⟨String.ofList word, String.toList_ofList.symm⟩
  have hfront : front.reverse.contains '\n' = false := by
    rw [List.contains_eq_mem, decide_eq_false_iff_not, List.mem_reverse]
    exact fun hmem => (hcs '\n' (List.mem_append_left _ hmem)).2 rfl
  have hfound := loopEndForm?_append hne hsolid (front ++ [blank])
  rw [List.append_assoc, List.singleton_append, h, List.reverse_concat] at hfound
  dsimp only at hfound
  rw [hblank, hfront] at hfound
  cases hfound

theorem IsPhrase.word_facts {word : String} (h : IsPhrase word.toList) :
    word ≠ "" ∧ '.' ∉ word.toList ∧ '\n' ∉ word.toList := by
  refine ⟨?_, fun hmem => (h.legible _ hmem).1 rfl, h.legible.newline⟩
  rintro rfl
  exact h.ne rfl

theorem Statement.Readable.words_facts {st : Statement} (h : st.Readable) :
    ∀ word ∈ st.words, word ≠ "" ∧ '.' ∉ word.toList ∧ '\n' ∉ word.toList := by
  have hphrase : ∀ word ∈ st.words, IsPhrase word.toList := by
    match st with
    | .act (.put name _) => simpa [Statement.words] using h.1
    | .act (.combine name _) => simpa [Statement.words] using h.1
    | .act (.liquefy _) => nofun
    | .act (.pour _ _) => nofun
    | .act (.stir _ _) => nofun
    | .loopStart verb name => simpa [Statement.words] using ⟨h.1.1, h.2.1⟩
    | .loopEnd verbed none => simpa [Statement.words] using h.1.1
    | .loopEnd verbed (some name) => simpa [Statement.words] using ⟨h.1.1, (h.2 name rfl).1⟩
  exact fun word hword => (hphrase word hword).word_facts

theorem Statement.Readable.containers_le {st : Statement} (h : st.Readable) :
    ∀ n ∈ st.containers, n ≤ 0xFFFFFFFFFFFFFFFE := by
  have hlt : ∀ n ∈ st.containers, n < countMax := by
    match st with
    | .act (.put _ bowl) => simpa [Statement.containers] using h.2.2
    | .act (.combine _ bowl) => simpa [Statement.containers] using h.2.2
    | .act (.liquefy bowl) =>
      have hbowl : bowl < countMax := h
      simpa [Statement.containers] using hbowl
    | .act (.pour bowl dish) =>
      have hboth : bowl < countMax ∧ dish < countMax := h
      simpa [Statement.containers] using hboth
    | .act (.stir bowl _) => simpa [Statement.containers] using h.1
    | .loopStart _ _ => nofun
    | .loopEnd _ _ => nofun
  intro n hn
  have hbound : n < 0xFFFFFFFFFFFFFFFF := hlt n hn
  omega

theorem Statement.Readable.wellFormed {st : Statement} (h : st.Readable) : st.WellFormed where
  containers := h.containers_le
  words := h.words_facts
  verb := by
    rintro verb name rfl
    exact ⟨h.1.2.1, (Verb.ofWord?_eq_none_iff _).mp h.1.2.2⟩
  argument := by
    rintro verb name rfl
    rw [String.toList_append]
    exact not_isLoopEnding h.2.2.2 (legible_append (by decide) h.2.1.legible)
  verbed := by
    rintro verbed name? rfl
    exact h.1.2

/-! ## preparations and recipes -/

/-- every ingredient is stored under its name, which is trimmed and on one line, and has no value or
one that is not negative; every statement is well formed -/
structure Preparation.WellFormed (p : Preparation) : Prop where
  stored : ∀ key i, p.ingredients.find? key = some i → i.name = key
  names : ∀ key i, p.ingredients.find? key = some i →
    key ≠ "" ∧ trim key.toList = key.toList ∧ '\n' ∉ key.toList
  values : ∀ key i, p.ingredients.find? key = some i → ∀ q ∈ i.value,
    0 ≤ q.val ∧ q.val ≤ 0x7FFFFFFFFFFFFFFF
  method : ∀ st ∈ p.method, st.WellFormed

/-- there is a main preparation with the title of the recipe; the others are stored under their
titles, which are not blank -/
structure Recipe.WellFormed (r : Recipe) : Prop where
  main : ∃ p, r.preparation? mainKey = some p ∧ p.title = r.title
  others : ∀ key p, r.preparation? key = some p → key ≠ mainKey →
    p.title = key ∧ ¬ IsBlankLine key
  preparations : ∀ key p, r.preparation? key = some p → p.WellFormed

theorem Preparation.Readable.wellFormed {p : Preparation} (h : p.Readable) : p.WellFormed where
  stored key i hi := (h.stored key i hi).1
  names key i hi := by
    obtain ⟨rfl, hread⟩ := h.stored key i hi
    refine ⟨fun he => hread.name_ne (he ▸ rfl), ?_, hread.name_line⟩
    exact trim_eq_self hread.name_first hread.name_last
  values key i hi q hq := ⟨(h.stored key i hi).2.value_nonneg q hq, q.most⟩
  method st hst := (h.method st hst).wellFormed

theorem Document.Readable.wellFormed {d : Document} (h : d.Readable) : d.recipe.WellFormed where
  main := ⟨d.main, Document.main?_recipe h.titled, rfl⟩
  others key p hp hkey := by
    rcases (Document.preparation?_recipe h.titled key p).mp hp with ⟨haux, rfl⟩ | ⟨hmain, _⟩
    · exact ⟨rfl, (h.auxiliaries p haux).2⟩
    · exact absurd hmain hkey
  preparations key p hp := by
    rcases (Document.preparation?_recipe h.titled key p).mp hp with ⟨haux, _⟩ | ⟨_, rfl⟩
    · exact (h.auxiliaries p haux).1.wellFormed
    · exact h.main.wellFormed

/-! ## titles -/

theorem DocumentForm.head_eq {After : List String → Prop} {ls : List String} {d : Document}
    (h : DocumentForm After ls d) : ls.head? = some d.main.title := by
  cases h with
  | mk main_form _ _ _ _ _ _ =>
    rw [main_form.title_eq]
    rfl

theorem head_textLines {source title : String} (h : (textLines source).head? = some title) :
    title.toList = (unifyLineEnds source.toList).takeWhile (· ≠ '\n') := by
  have hfirst := head_splitLines (unifyLineEnds source.toList)
  unfold textLines at h
  rw [List.head?_map] at h
  obtain ⟨l, hl, rfl⟩ := Option.map_eq_some_iff.mp h
  rw [hl] at hfirst
  rw [String.toList_ofList]
  exact hfirst

/-- a recipe that was read is well formed, and its title is the first line of the text -/
theorem wellFormed_of_parse {source : String} {r : Recipe} (h : Recipe.parse source = .ok r) :
    r.WellFormed ∧ r.title.toList = (unifyLineEnds source.toList).takeWhile (· ≠ '\n') := by
  obtain ⟨d, hform, rfl⟩ := (recipe_parse_iff source r).mp h
  have hread := hform.readable (unbroken_textLines source)
  exact ⟨hread.wellFormed, head_textLines hform.head_eq⟩

theorem wellFormed_doughText :
    ∃ r, Recipe.parse doughText = .ok r ∧ r.WellFormed ∧
      r.title.toList = (unifyLineEnds doughText.toList).takeWhile (· ≠ '\n') :=
  ⟨_, parse_doughText, wellFormed_of_parse parse_doughText⟩

end Cookery

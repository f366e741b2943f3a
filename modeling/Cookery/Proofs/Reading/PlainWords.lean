import Cookery.Proofs.Reading.RoundTrip

/-!
# Recipes in plain words

A recipe that needs one bowl and one dish does not number them: `Put salt into the mixing bowl.`
Such a recipe is laid out with one sentence on a line, one empty line between its parts, and line
feeds alone at the ends of its lines.

* `Step`, `Step.sentence`, `Step.action`   a sentence about the only bowl, and what it says;
* `Step.ofSentence_sentence`   the sentence is read as that action;
* `plainRecipe`                the text of a recipe, `plainRecipe_eq_feedLines` its lines;
* `IsFront`                    title, remarks and ingredient lines that can be read;
* `parse_plainRecipe`          the text is read as the recipe that it spells out.
-/

namespace Cookery

/-- a carriage return is a blank -/
theorem isOneLine_of_noBlankLast {l : String} (hline : '\n' ∉ l.toList)
    (hlast : NoBlankLast l.toList) : IsOneLine l := by
  refine ⟨hline, fun hreturn => ?_⟩
  exact absurd (hlast '\r' hreturn) (by decide)

theorem isOneLine_line {i : Ingredient} (h : i.Readable) : IsOneLine i.line := by
  refine isOneLine_of_noBlankLast (newline_not_mem_line h) ?_
  have hline : i.line.toList =
      (amountText i.value ++ (i.kind.measure.toList ++ [' '])) ++ i.name.toList := by
    rw [Ingredient.toList_line h.value_nonneg]
    simp [Ingredient.measured]
  rw [hline]
  exact noBlankLast_append h.name_last h.name_ne _

/-! ## steps -/

inductive Step where
  | put (name : String)
  | combine (name : String)
  | liquefy
  | pour
  | stir (minutes : Nat)
deriving DecidableEq

namespace Step

def sentence : Step → String
  | .put name => "Put " ++ name ++ " into the mixing bowl."
  | .combine name => "Combine " ++ name ++ " into the mixing bowl."
  | .liquefy => "Liquefy contents of the mixing bowl."
  | .pour => "Pour contents of the mixing bowl into the baking dish."
  | .stir minutes => "Stir for " ++ toString minutes ++ " minutes."

def action : Step → Action
  | .put name => .put name 0
  | .combine name => .combine name 0
  | .liquefy => .liquefy 0
  | .pour => .pour 0 0
  | .stir minutes => .stir 0 minutes

def argument : Step → List Char
  | .put name => name.toList ++ (" into ".toList ++ "the mixing bowl".toList)
  | .combine name => name.toList ++ (" into ".toList ++ "the mixing bowl".toList)
  | .liquefy => "contents of the mixing bowl".toList
  | .pour => "contents of the mixing bowl into the baking dish".toList
  | .stir minutes => "for ".toList ++ (numeral minutes ++ " minutes".toList)

theorem toList_sentence (s : Step) :
    s.sentence.toList = s.action.verb.name.toList ++ ' ' :: (s.argument ++ ['.']) := by
  cases s with
  | put name =>
    show ("Put " ++ name ++ " into the mixing bowl.").toList =
      "Put".toList ++ ' ' :: (name.toList ++ (" into ".toList ++ "the mixing bowl".toList) ++ ['.'])
    simp
  | combine name =>
    show ("Combine " ++ name ++ " into the mixing bowl.").toList =
      "Combine".toList ++
        ' ' :: (name.toList ++ (" into ".toList ++ "the mixing bowl".toList) ++ ['.'])
    simp
  | liquefy => rfl
  | pour => rfl
  | stir minutes =>
    show ("Stir for " ++ toString minutes ++ " minutes.").toList =
      "Stir".toList ++ ' ' :: ("for ".toList ++ (numeral minutes ++ " minutes".toList) ++ ['.'])
    simp [numeral]

theorem isClause {s : Step} (h : s.action.Readable) :
    IsClause s.action.verb.name.toList s.argument := by
  obtain ⟨hword, hsolid, _⟩ := s.action.verb.name_facts
  have hinto : IsPhrase (" into ".toList ++ "the mixing bowl".toList) := ⟨by decide, by decide⟩
  cases s with
  | put name => exact isClause_append hword hsolid h.1 h.2.1 hinto (by decide)
  | combine name => exact isClause_append hword hsolid h.1 h.2.1 hinto (by decide)
  | liquefy => exact ⟨hword, hsolid, ⟨by decide, by decide⟩, by decide, by decide⟩
  | pour => exact ⟨hword, hsolid, ⟨by decide, by decide⟩, by decide, by decide⟩
  | stir minutes =>
    have hminutes : IsPhrase (numeral minutes ++ " minutes".toList) :=
      ⟨List.append_ne_nil_of_left_ne_nil (numeral_ne_nil _) _,
        legible_append (legible_numeral _) (by decide)⟩
    have hlast : NoBlankLast (numeral minutes ++ " minutes".toList) :=
      noBlankLast_append (by decide) (by decide) _
    exact isClause_append hword hsolid ⟨by decide, by decide⟩ (by decide) hminutes hlast

/-- without an ordinal the first bowl is meant -/
theorem action?_argument {s : Step} (h : s.action.Readable) :
    s.action.verb.action? s.argument = some (.ok s.action) := by
  have hbowl : (whole? ∘ bowl?) "the mixing bowl".toList = some none := by decide
  cases s with
  | put name =>
    show (putForm? (name.toList ++ (" into ".toList ++ "the mixing bowl".toList))).map _ = _
    rw [putForm?_into h.1.ne h.1.legible.newline hbowl, Option.map_some]
    dsimp only
    rw [String.ofList_toList]
    rfl
  | combine name =>
    show (putForm? (name.toList ++ (" into ".toList ++ "the mixing bowl".toList))).map _ = _
    rw [putForm?_into h.1.ne h.1.legible.newline hbowl, Option.map_some]
    dsimp only
    rw [String.ofList_toList]
    rfl
  | liquefy => rfl
  | pour => rfl
  | stir minutes =>
    show (stirForm? ("for ".toList ++ (numeral minutes ++ " minutes".toList))).map _ = _
    rw [stirForm?_for, Option.map_some]
    dsimp only
    rw [countOf_numeral h.2]
    rfl

theorem ofSentence_sentence {s : Step} (h : s.action.Readable) :
    (sentences s.sentence.toList).map Statement.ofSentence = [.ok (.act s.action)] := by
  have hclause := isClause h
  rw [s.toList_sentence, hclause.sentences_eq, List.map_singleton, hclause.ofSentence_eq,
    String.ofList_toList, decode_act (action?_argument h)]

theorem not_endsMethod (s : Step) : ¬ EndsMethod s.sentence := by
  have ht : 't' ∈ s.argument := by
    cases s with
    | put name => exact List.mem_append_right _ (by decide)
    | combine name => exact List.mem_append_right _ (by decide)
    | liquefy => decide
    | pour => decide
    | stir minutes =>
      exact List.mem_append_right _ (List.mem_append_right _ (by decide))
  refine not_endsMethod_of_t ?_
  rw [s.toList_sentence]
  exact List.mem_append_right _ (List.mem_cons_of_mem _ (List.mem_append_left _ ht))

theorem isOneLine {s : Step} (h : s.action.Readable) : IsOneLine s.sentence := by
  have hline : s.sentence.toList =
      (s.action.verb.name.toList ++ ' ' :: s.argument) ++ ['.'] := by
    rw [s.toList_sentence, List.append_assoc, List.cons_append]
  apply isOneLine_of_noBlankLast
  · rw [hline, List.mem_append, not_or]
    exact ⟨(isClause h).legible.newline, by decide⟩
  · rw [hline]
    exact noBlankLast_append (by decide) (by decide) _

end Step

/-! ## the layout -/

/-- title, remarks, ingredients and method, each with an empty line after it; one dish is served -/
def plainRecipe (title : String) (remarks items : List String) (steps : List Step) : String :=
  title ++ "\n\n" ++ String.join (remarks.map (· ++ "\n\n")) ++
    "Ingredients.\n" ++ "\n".intercalate items ++ "\n\n" ++
    "Method.\n" ++ "\n".intercalate (steps.map Step.sentence) ++ "\n\n" ++ "Serves 1.\n"

/-- the empty lines after a list: a list of no lines has the place of a line -/
def listGap (ls : List String) : List String :=
  "" :: match ls with
    | [] => [""]
    | _ :: _ => []

theorem allBlank_listGap (ls : List String) : AllBlank (listGap ls) := by
  cases ls with
  | nil => exact allBlank_cons_empty (allBlank_cons_empty (List.forall_mem_nil _))
  | cons l ls => exact allBlank_cons_empty (List.forall_mem_nil _)

theorem intercalate_append_gap (ls : List String) :
    "\n".intercalate ls ++ "\n\n" = feedLines (ls ++ listGap ls) := by
  cases ls with
  | nil => rfl
  | cons l ls =>
    have hgap : feedLines (listGap (l :: ls)) = "\n" := rfl
    have htwo : "\n\n" = "\n" ++ "\n" := rfl
    rw [htwo, ← String.append_assoc, intercalate_append_newline, feedLines_append, hgap]

/-- the lines between the title and the ingredients -/
def leadLines (remarks : List String) : List String := "" :: remarks.flatMap fun r => [r, ""]

theorem feedLines_paragraph (l : String) : feedLines [l, ""] = l ++ "\n\n" := by
  simp [feedLines, ← String.toList_inj]

theorem feedLines_leadLines (title : String) (remarks : List String) :
    feedLines (title :: leadLines remarks) =
      title ++ "\n\n" ++ String.join (remarks.map (· ++ "\n\n")) := by
  have hremarks : feedLines (remarks.flatMap fun r => [r, ""]) =
      String.join (remarks.map (· ++ "\n\n")) := by
    induction remarks with
    | nil => rfl
    | cons r remarks ih =>
      rw [List.flatMap_cons, feedLines_append, ih, feedLines_paragraph, List.map_cons,
        String.join_cons]
  show feedLines ([title, ""] ++ remarks.flatMap fun r => [r, ""]) = _
  rw [feedLines_append, hremarks, feedLines_paragraph]

def plainLines (title : String) (remarks items : List String) (steps : List Step) : List String :=
  title :: (leadLines remarks ++ Heading.ingredients.text ::
    (items ++ (listGap items ++ Heading.method.text ::
      (steps.map Step.sentence ++ (listGap (steps.map Step.sentence) ++ ["Serves 1."])))))

theorem plainRecipe_eq_feedLines (title : String) (remarks items : List String)
    (steps : List Step) :
    plainRecipe title remarks items steps = feedLines (plainLines title remarks items steps) := by
  have hpieces : plainLines title remarks items steps =
      (title :: leadLines remarks) ++ ([Heading.ingredients.text] ++
        ((items ++ listGap items) ++ ([Heading.method.text] ++
          ((steps.map Step.sentence ++ listGap (steps.map Step.sentence)) ++
            ["Serves 1."])))) := by
    simp [plainLines]
  have hingredients : feedLines [Heading.ingredients.text] = "Ingredients.\n" := rfl
  have hmethod : feedLines [Heading.method.text] = "Method.\n" := rfl
  have hserves : feedLines ["Serves 1."] = "Serves 1.\n" := rfl
  rw [hpieces, feedLines_append, feedLines_leadLines, feedLines_append, hingredients,
    feedLines_append, ← intercalate_append_gap, feedLines_append, hmethod, feedLines_append,
    ← intercalate_append_gap, hserves]
  simp only [plainRecipe, String.append_assoc]

/-! ## reading the text -/

/-- title, remarks and ingredient lines that are read as the ingredients `shelf` -/
structure IsFront (title : String) (remarks items : List String) (shelf : List Ingredient) :
    Prop where
  lines : ∀ l ∈ title :: (remarks ++ items), IsOneLine l
  remarks_skip : ∀ r ∈ remarks, r ≠ Heading.ingredients.text
  items_text : ∀ l ∈ items, IsTextLine l
  items_read : items.map Ingredient.ofLine = shelf.map .ok
  names : (shelf.map Ingredient.name).Nodup

/-- the ingredients by name -/
def shelfTable (shelf : List Ingredient) : Pantry := Table.storeBy Ingredient.name .empty shelf

def plainMethod (steps : List Step) : List Statement := steps.map fun s => .act s.action

/-- the recipe that a plain text spells out -/
def plainDocument (title : String) (shelf : List Ingredient) (steps : List Step) : Document where
  servings := 1
  main := { title, ingredients := shelfTable shelf, method := plainMethod steps, oven := none }
  auxiliaries := []

section
variable {title : String} {remarks items : List String} {shelf : List Ingredient}
  {steps : List Step}

theorem leadLines_skip (h : ∀ r ∈ remarks, r ≠ Heading.ingredients.text) :
    ∀ l ∈ leadLines remarks, l ≠ Heading.ingredients.text := by
  intro l hl
  simp only [leadLines, List.mem_cons, List.mem_flatMap, List.not_mem_nil, or_false] at hl
  rcases hl with rfl | ⟨r, hr, rfl | rfl⟩
  · decide
  · exact h l hr
  · decide

theorem lastOven_listGap (ls : List String) : lastOven (listGap ls) = none := by
  have hoven := lastOven_append_of_none
    (fun l hl => ovenLine?_of_blank (allBlank_listGap ls l hl)) []
  rw [List.append_nil] at hoven
  rw [hoven]
  rfl

theorem preparationForm_plainLines (hfront : IsFront title remarks items shelf)
    (hsteps : ∀ s ∈ steps, s.action.Readable) (rest : List String) :
    PreparationForm title
      (leadLines remarks ++ Heading.ingredients.text ::
        (items ++ (listGap items ++ Heading.method.text ::
          (steps.map Step.sentence ++ (listGap (steps.map Step.sentence) ++ rest)))))
      (plainDocument title shelf steps).main (listGap items)
      (listGap (steps.map Step.sentence) ++ rest) := by
  have hitems : IngredientRun items (shelfTable shelf) :=
    ⟨hfront.items_text, shelf, hfront.items_read, hfront.names, (ofList_eq_storeBy shelf).symm⟩
  have hlongest : ∀ l ∈ (listGap items).head?, ¬ IsTextLine l :=
    forall_mem_head_cons (¬ IsTextLine ·) (fun ht => ht.1 isBlankLine_empty) _
  have hskips : ∀ l ∈ listGap items, l ≠ Heading.method.text := by
    rintro l hl rfl
    exact heading_not_blank .method (allBlank_listGap items _ hl)
  have hmethod : MethodRun (steps.map Step.sentence) (plainMethod steps) :=
    methodRun_map (fun s _ => s.not_endsMethod) fun s hs => Step.ofSentence_sentence (hsteps s hs)
  have hends : ∀ l ∈ (listGap (steps.map Step.sentence) ++ rest).head?, EndsMethod l :=
    forall_mem_head_cons EndsMethod (.inl isBlankLine_empty) _
  have hform : PreparationForm title _ _ (listGap items) _ :=
    .mk (leadLines_skip hfront.remarks_skip) hitems hlongest hskips hmethod hends
  rw [lastOven_listGap] at hform
  exact hform

theorem documentForm_plainLines (hfront : IsFront title remarks items shelf)
    (hsteps : ∀ s ∈ steps, s.action.Readable) :
    DocumentForm AllBlank (plainLines title remarks items steps)
      (plainDocument title shelf steps) := by
  have hform := preparationForm_plainLines hfront hsteps (["Serves 1."] ++ ([] ++ []))
  have hearly : EarlyCount (listGap items ++ []) none := .absent (allBlank_listGap items) nofun
  rw [List.append_nil] at hearly
  have hserves : ServesLine "Serves 1." 1 := by
    have hline : "Serves 1." = "Serves " ++ toString 1 ++ "." := by decide
    rw [hline]
    exact servesLine_line (by decide)
  exact .mk hform hearly (allBlank_listGap _) (.here hserves) (List.forall_mem_nil _) .none
    (by decide)

theorem isOneLine_plainLines (hfront : IsFront title remarks items shelf)
    (hsteps : ∀ s ∈ steps, s.action.Readable) :
    ∀ l ∈ plainLines title remarks items steps, IsOneLine l := by
  have hempty : IsOneLine "" := ⟨by decide, by decide⟩
  have hgap : ∀ ls l, l ∈ listGap ls → IsOneLine l := by
    intro ls l hl
    obtain rfl : l = "" := by
      cases ls <;> simpa [listGap] using hl
    exact hempty
  intro l hl
  simp only [plainLines, leadLines, List.mem_append, List.mem_cons, List.mem_flatMap, List.mem_map,
    List.not_mem_nil, or_false] at hl
  rcases hl with rfl | (rfl | ⟨r, hr, rfl | rfl⟩) | rfl | hl | hl | rfl | ⟨s, hs, rfl⟩ | hl | rfl
  · exact hfront.lines l List.mem_cons_self
  · exact hempty
  · exact hfront.lines l (List.mem_cons_of_mem _ (List.mem_append_left _ hr))
  · exact hempty
  · exact ⟨by decide, by decide⟩
  · exact hfront.lines l (List.mem_cons_of_mem _ (List.mem_append_right _ hl))
  · exact hgap _ l hl
  · exact ⟨by decide, by decide⟩
  · exact Step.isOneLine (hsteps s hs)
  · exact hgap _ l hl
  · exact ⟨by decide, by decide⟩

theorem parse_plainRecipe (hfront : IsFront title remarks items shelf)
    (hsteps : ∀ s ∈ steps, s.action.Readable) :
    Recipe.parse (plainRecipe title remarks items steps) =
      .ok (plainDocument title shelf steps).recipe := by
  refine (recipe_parse_iff _ _).mpr ⟨_, ?_, rfl⟩
  rw [plainRecipe_eq_feedLines, textLines_feedLines (isOneLine_plainLines hfront hsteps)]
  exact documentForm_plainLines hfront hsteps

end

end Cookery

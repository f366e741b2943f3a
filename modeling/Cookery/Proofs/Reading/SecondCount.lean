import Cookery.Proofs.Reading.Acceptance

/-!
# Documents with two serving counts

A serving count before the method of the main preparation is enough, and what follows the method is
not looked at for another one.  So a second count, right after the method, is taken for the title of
an auxiliary preparation.  Whether the text is read depends on what follows: it is read if and only
if an auxiliary preparation with that title, and the others after it, can be read from there.

* `preparationForm_iff`     the lines of a preparation determine its parts;
* `earlyCount_found`        a serving count before its method is the one that is found;
* `TwoCounts`               lines with a serving count before and after the main method;
* `TwoCounts.parse_eq_ok_iff`   when they are read, and as what;
* `parse_of_twoCounts`      the second count is then the key of an auxiliary preparation.
-/

namespace Cookery

/-! ## the parts of a preparation -/

/-- where each part goes as far as it can, the lines have no other parts -/
theorem preparationForm_iff {title : String} {lead items middle steps after : List String}
    (hlead : ∀ l ∈ lead, l ≠ Heading.ingredients.text) (hitems : ∀ l ∈ items, IsTextLine l)
    (hmiddle : ∀ l ∈ middle.head?, ¬ IsTextLine l)
    (hskips : ∀ l ∈ middle, l ≠ Heading.method.text) (hsteps : ∀ l ∈ steps, ¬ EndsMethod l)
    (hafter : ∀ l ∈ after.head?, EndsMethod l) (main : Preparation)
    (between rest : List String) :
    PreparationForm title
        (lead ++ Heading.ingredients.text ::
          (items ++ (middle ++ Heading.method.text :: (steps ++ after)))) main between rest ↔
      between = middle ∧ rest = after ∧ ∃ pantry method, IngredientRun items pantry ∧
        MethodRun steps method ∧
        main = { title, ingredients := pantry, method, oven := lastOven middle } := by
  constructor
  · generalize hls : lead ++ Heading.ingredients.text ::
      (items ++ (middle ++ Heading.method.text :: (steps ++ after))) = ls
    intro h
    obtain ⟨lead_skips, items_run, items_longest, between_skips, steps_run, steps_longest⟩ := h
    rename_i lead' items' steps' pantry method
    have hstop : ∀ (heading : Heading) (r : List String),
        ∀ l ∈ (heading.text :: r).head?, ¬ l ≠ heading.text := fun heading r =>
      forall_mem_head_cons (¬ · ≠ heading.text) (not_not_intro rfl) r
    -- cut by cut: the lead, the ingredients, the lines up to the method, the method
    obtain ⟨rfl, h₁⟩ := run_inj hls hlead (hstop .ingredients _) lead_skips (hstop .ingredients _)
    obtain ⟨rfl, h₂⟩ := run_inj (List.cons.inj h₁).2 hitems (between_head_not_text hmiddle _)
      items_run.1 (between_head_not_text items_longest _)
    obtain ⟨rfl, h₃⟩ := run_inj h₂ hskips (hstop .method _) between_skips (hstop .method _)
    obtain ⟨rfl, rfl⟩ := run_inj (List.cons.inj h₃).2 hsteps
      (fun l hl => not_not_intro (hafter l hl)) steps_run.1
      fun l hl => not_not_intro (steps_longest l hl)
    exact ⟨rfl, rfl, pantry, method, items_run, steps_run, rfl⟩
  · rintro ⟨rfl, rfl, pantry, method, hpantry, hmethod, rfl⟩
    exact .mk hlead hpantry hmiddle hskips hmethod hafter

theorem ServesLine.unique {line : String} {n m : Nat} (hn : ServesLine line n)
    (hm : ServesLine line m) : n = m := by
  rw [← servesLine?_eq_some_iff] at hn hm
  exact Option.some.inj (hn.symm.trans hm)

/-- the first line that is not blank decides -/
theorem earlyCount_found {blanks after : List String} {line : String} {n : Nat}
    (hblanks : AllBlank blanks) (hcount : ServesLine line n) {early? : Option Nat}
    (h : EarlyCount (blanks ++ line :: after) early?) : early? = some n := by
  generalize hls : blanks ++ line :: after = ls at h
  have hline := servesLine_head_not_blank hcount after
  cases h with
  | @found blanks' after' line' m hblanks' hcount' =>
    obtain ⟨-, hrest⟩ := run_inj hls hblanks hline hblanks'
      (servesLine_head_not_blank hcount' after')
    obtain ⟨rfl, -⟩ := List.cons.inj hrest
    rw [hcount.unique hcount']
  | @absent blanks' after' hblanks' other =>
    obtain ⟨-, rfl⟩ := run_inj hls hblanks hline hblanks' fun l hl => (other l hl).1
    exact absurd hcount ((other line rfl).2 n)

/-! ## two counts -/

/-- the lines of a document whose main preparation has a serving count on the first line after its
ingredients that is not blank, and on the first one after its method too -/
structure TwoCounts where
  title : String
  lead : List String
  items : List String
  blanks : List String
  first : String
  early : Nat
  between : List String
  steps : List String
  gap : List String
  second : String
  late : Nat
  tail : List String
  lead_skips : ∀ l ∈ lead, l ≠ Heading.ingredients.text
  items_text : ∀ l ∈ items, IsTextLine l
  /-- without a blank line the count would be one of the ingredients -/
  blanks_ne : blanks ≠ []
  blanks_blank : AllBlank blanks
  first_count : ServesLine first early
  between_skips : ∀ l ∈ between, l ≠ Heading.method.text
  steps_open : ∀ l ∈ steps, ¬ EndsMethod l
  gap_blank : AllBlank gap
  second_count : ServesLine second late

namespace TwoCounts
variable (t : TwoCounts)

/-- the lines between the two lists of the main preparation -/
def middle : List String := t.blanks ++ t.first :: t.between

def lines : List String :=
  t.title :: (t.lead ++ Heading.ingredients.text ::
    (t.items ++ (t.middle ++ Heading.method.text :: (t.steps ++ (t.gap ++ t.second :: t.tail)))))

theorem middle_head_not_text : ∀ l ∈ t.middle.head?, ¬ IsTextLine l := by
  obtain ⟨b, bs, hb⟩ := List.exists_cons_of_ne_nil t.blanks_ne
  have hblank : IsBlankLine b := t.blanks_blank b (by rw [hb]; exact List.mem_cons_self)
  unfold middle
  rw [hb, List.cons_append]
  exact forall_mem_head_cons (¬ IsTextLine ·) (fun htext => htext.1 hblank) _

theorem middle_skips : ∀ l ∈ t.middle, l ≠ Heading.method.text := by
  intro l hl
  rcases List.mem_append.mp hl with hl | hl
  · rintro rfl
    exact heading_not_blank .method (t.blanks_blank _ hl)
  · rcases List.mem_cons.mp hl with rfl | hl
    · exact servesLine_ne_heading t.first_count .method
    · exact t.between_skips l hl

theorem after_head_endsMethod : ∀ l ∈ (t.gap ++ t.second :: t.tail).head?, EndsMethod l := by
  cases hgap : t.gap with
  | nil => exact forall_mem_head_cons EndsMethod (.inr ⟨t.late, t.second_count⟩) _
  | cons b bs =>
    have hblank : IsBlankLine b := t.gap_blank b (by rw [hgap]; exact List.mem_cons_self)
    exact forall_mem_head_cons EndsMethod (.inl hblank) _

/-- the document that is read: it has the first count, and the preparations from the second one on
as auxiliary ones -/
def document (pantry : Pantry) (method : List Statement) (auxiliaries : List Preparation) :
    Document where
  servings := t.early
  main := { title := t.title, ingredients := pantry, method, oven := lastOven t.middle }
  auxiliaries

/-- the lines are a document iff both lists of the main preparation can be read, and the lines from
the second count on as auxiliary preparations -/
theorem documentForm_iff (d : Document) :
    DocumentForm AllBlank t.lines d ↔ ∃ pantry method auxiliaries,
      IngredientRun t.items pantry ∧ MethodRun t.steps method ∧
      AuxiliariesForm (t.second :: t.tail) auxiliaries ∧
      (mainKey :: auxiliaries.map Preparation.title).Nodup ∧
      d = t.document pantry method auxiliaries := by
  have hform := @preparationForm_iff t.title _ _ _ _ _ t.lead_skips t.items_text
    t.middle_head_not_text t.middle_skips t.steps_open t.after_head_endsMethod
  constructor
  · generalize hls : t.lines = ls
    intro h
    obtain ⟨main_form, early, blanks_blank, late, gap_blank, others, titles⟩ := h
    rename_i title lines between blanks count gap rest main early? servings auxiliaries
    obtain ⟨rfl, rfl⟩ := List.cons.inj hls
    obtain ⟨rfl, hrest, pantry, method, hpantry, hmethod, rfl⟩ := (hform _ _ _).mp main_form
    obtain rfl := earlyCount_found t.blanks_blank t.first_count early
    cases late
    -- no line is left for a count: all blank lines go before the auxiliary preparations
    rw [List.nil_append, ← List.append_assoc] at hrest
    have hblanks : AllBlank (blanks ++ gap) := by
      intro l hl
      rcases List.mem_append.mp hl with hl | hl
      · exact blanks_blank l hl
      · exact gap_blank l hl
    obtain ⟨-, rfl⟩ := run_inj hrest hblanks others.head_not_blank t.gap_blank
      (servesLine_head_not_blank t.second_count t.tail)
    exact ⟨pantry, method, auxiliaries, hpantry, hmethod, others, titles, rfl⟩
  · rintro ⟨pantry, method, auxiliaries, hpantry, hmethod, others, titles, rfl⟩
    have hmain := (hform _ _ _).mpr ⟨rfl, rfl, pantry, method, hpantry, hmethod, rfl⟩
    exact @DocumentForm.mk AllBlank t.title _ t.middle t.gap [] [] (t.second :: t.tail) _
      (some t.early) t.early auxiliaries hmain (.found t.blanks_blank t.first_count) t.gap_blank
      (.before t.early) (List.forall_mem_nil _) others titles

theorem parse_eq_ok_iff {source : String} (h : textLines source = t.lines) (r : Recipe) :
    Recipe.parse source = .ok r ↔ ∃ pantry method auxiliaries,
      IngredientRun t.items pantry ∧ MethodRun t.steps method ∧
      AuxiliariesForm (t.second :: t.tail) auxiliaries ∧
      (mainKey :: auxiliaries.map Preparation.title).Nodup ∧
      r = (t.document pantry method auxiliaries).recipe := by
  rw [recipe_parse_iff, h]
  constructor
  · rintro ⟨d, hd, rfl⟩
    obtain ⟨pantry, method, auxiliaries, hpantry, hmethod, others, titles, rfl⟩ :=
      (t.documentForm_iff d).mp hd
    exact ⟨pantry, method, auxiliaries, hpantry, hmethod, others, titles, rfl⟩
  · rintro ⟨pantry, method, auxiliaries, hpantry, hmethod, others, titles, rfl⟩
    refine ⟨t.document pantry method auxiliaries, (t.documentForm_iff _).mpr ?_, rfl⟩
    exact ⟨pantry, method, auxiliaries, hpantry, hmethod, others, titles, rfl⟩

end TwoCounts

/-- a text with two counts is read iff the two lists of its main preparation are, and the lines from
the second count on are auxiliary preparations; the recipe has the first count, and under the text of
the second one a preparation that is read from the lines after it -/
theorem parse_of_twoCounts (t : TwoCounts) {source : String} (h : textLines source = t.lines) :
    ((∃ r, Recipe.parse source = .ok r) ↔
      (∃ pantry, IngredientRun t.items pantry) ∧ (∃ method, MethodRun t.steps method) ∧
      ∃ auxiliaries, AuxiliariesForm (t.second :: t.tail) auxiliaries ∧
        (mainKey :: auxiliaries.map Preparation.title).Nodup) ∧
    ∀ r, Recipe.parse source = .ok r → r.servings = t.early ∧
      ∃ p between rest, PreparationForm t.second t.tail p between rest ∧
        r.preparation? t.second = some p := by
  refine ⟨⟨?_, ?_⟩, fun r hr => ?_⟩
  · rintro ⟨r, hr⟩
    obtain ⟨pantry, method, auxiliaries, hpantry, hmethod, others, titles, -⟩ :=
      (t.parse_eq_ok_iff h r).mp hr
    exact ⟨⟨pantry, hpantry⟩, ⟨method, hmethod⟩, auxiliaries, others, titles⟩
  · rintro ⟨⟨pantry, hpantry⟩, ⟨method, hmethod⟩, auxiliaries, others, titles⟩
    refine ⟨(t.document pantry method auxiliaries).recipe, (t.parse_eq_ok_iff h _).mpr ?_⟩
    exact ⟨pantry, method, auxiliaries, hpantry, hmethod, others, titles, rfl⟩
  · obtain ⟨pantry, method, auxiliaries, -, -, others, titles, rfl⟩ :=
      (t.parse_eq_ok_iff h r).mp hr
    cases others with
    | @more _ _ between blanks rest p ps _ first _ _ =>
      have htitled : (t.document pantry method (p :: ps)).Titled := titles
      refine ⟨rfl, p, between, blanks ++ rest, first, ?_⟩
      refine (Document.preparation?_recipe htitled t.second p).mpr (.inl ⟨?_, first.title_eq⟩)
      exact List.mem_cons_self

/-! ## a cake with an icing -/

def cakeText : String :=
  "Cake\nIngredients.\n1 g salt\n\nServes 1.\n\nMethod.\nPut salt into the mixing bowl.\n\n" ++
  "Serves 2.\n\nIcing\n\nIngredients.\n2 g sugar\n\nMethod.\nPut sugar into the mixing bowl.\n"

def cake : TwoCounts where
  title := "Cake"
  lead := []
  items := ["1 g salt"]
  blanks := [""]
  first := "Serves 1."
  early := 1
  between := [""]
  steps := ["Put salt into the mixing bowl."]
  gap := [""]
  second := "Serves 2."
  late := 2
  tail := ["", "Icing", "", "Ingredients.", "2 g sugar", "", "Method.",
    "Put sugar into the mixing bowl."]
  lead_skips := List.forall_mem_nil _
  items_text := List.forall_mem_singleton.mpr ((ofText_eq_text_iff _).mp (by decide))
  blanks_ne := List.cons_ne_nil _ _
  blanks_blank := List.forall_mem_singleton.mpr isBlankLine_empty
  first_count := (servesLine?_eq_some_iff _ _).mp (by decide)
  between_skips := by decide
  steps_open := List.forall_mem_singleton.mpr (not_endsMethod_of_t (by decide))
  gap_blank := List.forall_mem_singleton.mpr isBlankLine_empty
  second_count := (servesLine?_eq_some_iff _ _).mp (by decide)

/-- the preparation that is read under the text of the second count -/
def icing : Preparation where
  title := "Serves 2."
  ingredients := Table.ofList [("sugar", ⟨"sugar", Quantity.ofInt? 2, .dry⟩)]
  method := [.act (.put "sugar" 0)]
  oven := none

theorem textLines_cakeText : textLines cakeText = cake.lines := by decide +kernel

theorem auxiliariesForm_icing : AuxiliariesForm (cake.second :: cake.tail) [icing] := by
  have hread : readPreparation cake.second false ⟨10, cake.tail⟩ =
      .ok ((icing, none), ⟨18, []⟩) := rfl
  obtain ⟨between, -, hform, -⟩ := form_of_readPreparation hread
  exact @AuxiliariesForm.more _ _ _ [] _ _ _ (servesLine_not_blank cake.second_count) hform
    (List.forall_mem_nil _) .none

theorem cake_lists :
    (∃ pantry, IngredientRun cake.items pantry) ∧ ∃ method, MethodRun cake.steps method := by
  refine ⟨⟨_, cake.items_text, [⟨"salt", Quantity.ofInt? 1, .dry⟩], rfl, ?_, rfl⟩,
    [.act (.put "salt" 0)], cake.steps_open, rfl⟩
  exact List.nodup_cons.mpr ⟨List.not_mem_nil, List.nodup_nil⟩

theorem icing_titles : (mainKey :: [icing].map Preparation.title).Nodup := by decide

/-- the cake is read with one serving; its icing has the title `Serves 2.`, not its own -/
theorem parse_cakeText :
    ∃ r, Recipe.parse cakeText = .ok r ∧ r.servings = 1 ∧ r.preparation? "Serves 2." = some icing ∧
      r.preparation? "Icing" = none := by
  obtain ⟨⟨pantry, hpantry⟩, method, hmethod⟩ := cake_lists
  have htitled : (cake.document pantry method [icing]).Titled := icing_titles
  refine ⟨_, (cake.parse_eq_ok_iff textLines_cakeText _).mpr
    ⟨pantry, method, [icing], hpantry, hmethod, auxiliariesForm_icing, icing_titles, rfl⟩, rfl,
    ?_, ?_⟩
  · exact (Document.preparation?_recipe htitled _ _).mpr (.inl ⟨List.mem_cons_self, rfl⟩)
  · refine Option.eq_none_iff_forall_ne_some.mpr fun p hp => ?_
    rcases (Document.preparation?_recipe htitled _ p).mp hp with ⟨hmem, htitle⟩ | ⟨hkey, -⟩
    · obtain rfl := List.mem_singleton.mp hmem
      exact absurd htitle (by decide)
    · exact absurd hkey (by decide)

/-- a text with two counts that is read -/
theorem parse_of_twoCounts_cake :
    (∃ r, Recipe.parse cakeText = .ok r) ∧
      ∀ r, Recipe.parse cakeText = .ok r → r.servings = 1 ∧
        ∃ p between rest, PreparationForm "Serves 2." cake.tail p between rest ∧
          r.preparation? "Serves 2." = some p := by
  obtain ⟨hread, hrecipe⟩ := parse_of_twoCounts cake textLines_cakeText
  exact ⟨hread.mpr ⟨cake_lists.1, cake_lists.2, [icing], auxiliariesForm_icing, icing_titles⟩,
    hrecipe⟩

end Cookery

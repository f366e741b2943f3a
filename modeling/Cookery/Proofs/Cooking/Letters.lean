import Cookery.Proofs.Cooking.Spelling

/-!
# A recipe for every text

Every character of a text is an ingredient, with its code point for an amount.  They are put into
the bowl last first, and liquefied one by one.

* `lettersRecipe`        the recipe of a text;
* `isFront_letters`      its ingredients are read, each under a name of its own;
* `turns_letters`        its steps spell the text;
* `cook_lettersRecipe`   it is cooked to the text.
-/

namespace Cookery

/-! ## the recipe -/

/-- the characters from the last to the first, numbered from 0 -/
def letters (text : String) : List (Char × Nat) := text.toList.reverse.zipIdx

def letterName (n : Nat) : String := "letter" ++ toString n

def letterLine (l : Char × Nat) : String := toString l.1.toNat ++ " " ++ letterName l.2

def letterSteps (l : Char × Nat) : List Step := [.put (letterName l.2), .liquefy]

def lettersRecipe (text : String) : String :=
  plainRecipe "Letters." [] ((letters text).map letterLine)
    ((letters text).flatMap letterSteps ++ [.pour])

/-! ## reading it -/

def letterIngredient (l : Char × Nat) : Ingredient := ⟨letterName l.2, some (.ofChar l.1), .either⟩

theorem toList_letterName (n : Nat) : (letterName n).toList = "letter".toList ++ numeral n :=
  String.toList_append

theorem letterName_inj {n m : Nat} (h : letterName n = letterName m) : n = m := by
  have hnumeral : numeral n = numeral m := congrArg String.toList ((String.append_right_inj _).mp h)
  rw [← numberOf_numeral n, hnumeral, numberOf_numeral]

theorem letterName_facts (n : Nat) :
    IsPhrase (letterName n).toList ∧ Solid (letterName n).toList := by
  rw [toList_letterName]
  refine ⟨⟨List.cons_ne_nil _ _, legible_append (by decide) (legible_numeral n)⟩, ?_⟩
  intro c hc
  rcases List.mem_append.mp hc with hc | hc
  · exact (by decide : Solid "letter".toList) c hc
  · exact solid_numeral n c hc

theorem ofLine_letterLine (l : Char × Nat) :
    Ingredient.ofLine (letterLine l) = .ok (letterIngredient l) := by
  obtain ⟨hphrase, hsolid⟩ := letterName_facts l.2
  exact ofLine_unmeasured (q := .ofChar l.1) hphrase.ne hsolid (Int.natCast_nonneg _)

theorem toList_letterLine (l : Char × Nat) :
    (letterLine l).toList = numeral l.1.toNat ++ ' ' :: (letterName l.2).toList := by
  simp [letterLine, numeral]

theorem isTextLine_letterLine (l : Char × Nat) : IsTextLine (letterLine l) := by
  have hletter : 'l' ∈ (letterName l.2).toList := by
    rw [toList_letterName]
    exact List.mem_append_left _ (by decide)
  have hmem : ∀ c ∈ ' ' :: (letterName l.2).toList, c ∈ (letterLine l).toList := by
    intro c hc
    rw [toList_letterLine]
    exact List.mem_append_right _ hc
  exact isTextLine_of_space (hmem ' ' List.mem_cons_self)
    (hmem 'l' (List.mem_cons_of_mem _ hletter)) (by decide)

theorem isOneLine_letterLine (l : Char × Nat) : IsOneLine (letterLine l) := by
  obtain ⟨hphrase, hsolid⟩ := letterName_facts l.2
  apply isOneLine_of_noBlankLast
  · rw [toList_letterLine, List.mem_append, List.mem_cons, not_or, not_or]
    exact ⟨newline_not_mem_numeral _, by decide, hphrase.legible.newline⟩
  · rw [toList_letterLine, ← List.singleton_append, ← List.append_assoc]
    exact noBlankLast_append hsolid.noBlankLast hphrase.ne _

theorem nodup_letterNames (text : String) :
    (((letters text).map letterIngredient).map Ingredient.name).Nodup := by
  have hnames : ((letters text).map letterIngredient).map Ingredient.name =
      (List.range' 0 text.toList.reverse.length).map letterName := by
    rw [← List.zipIdx_map_snd, List.map_map, List.map_map]
    rfl
  rw [hnames]
  refine List.pairwise_map.mpr ((List.nodup_range' (s := 0)).imp fun hne he => ?_)
  exact hne (letterName_inj he)

theorem isFront_letters (text : String) :
    IsFront "Letters." [] ((letters text).map letterLine)
      ((letters text).map letterIngredient) where
  lines := by
    intro l hl
    rcases List.mem_cons.mp hl with rfl | hl
    · exact ⟨by decide, by decide⟩
    · obtain ⟨k, _, rfl⟩ := List.mem_map.mp hl
      exact isOneLine_letterLine k
  remarks_skip := List.forall_mem_nil _
  items_text := by
    intro l hl
    obtain ⟨k, _, rfl⟩ := List.mem_map.mp hl
    exact isTextLine_letterLine k
  items_read := by
    rw [List.map_map, List.map_map]
    refine List.map_congr_left fun k _ => ?_
    rw [Function.comp_apply, Function.comp_apply, ofLine_letterLine]
  names := nodup_letterNames text

theorem letterSteps_readable (text : String) :
    ∀ s ∈ (letters text).flatMap letterSteps, s.action.Readable := by
  intro s hs
  simp only [letterSteps, List.mem_flatMap, List.mem_cons, List.not_mem_nil, or_false] at hs
  obtain ⟨l, _, rfl | rfl⟩ := hs
  · obtain ⟨hphrase, hsolid⟩ := letterName_facts l.2
    exact ⟨hphrase, hsolid.noBlankFirst, by decide⟩
  · show 0 < countMax
    decide

/-! ## cooking it -/

theorem find_letter (text : String) {l : Char × Nat} (h : l ∈ letters text) :
    (shelfTable ((letters text).map letterIngredient)).find? (letterName l.2) =
      some (letterIngredient l) :=
  Table.find?_storeBy_of_mem (nodup_letterNames text) (List.mem_map_of_mem h) .empty

theorem toChar_letterIngredient (l : Char × Nat) :
    (letterIngredient l).liquefied.toChar = .ok l.1 :=
  Ingredient.toChar_eq_ok_iff.mpr ⟨rfl, _, rfl, Quantity.char?_ofChar l.1⟩

/-- every letter comes to stand before the ones that were put before it -/
theorem turns_letters {p : Pantry} {ls : List (Char × Nat)}
    (h : ∀ l ∈ ls, p.find? (letterName l.2) = some (letterIngredient l)) (text : List Char) :
    Turns p (ls.flatMap letterSteps) (·.Spells text)
      (·.Spells ((ls.map Prod.fst).reverse ++ text)) := by
  induction ls generalizing text with
  | nil => exact Turns.nil p _
  | cons l ls ih =>
    have hfirst : Turns p (letterSteps l) (·.Spells text) (·.Spells (l.1 :: text)) :=
      turns_put_liquefy (h l List.mem_cons_self) (toChar_letterIngredient l)
    have hrest := ih (fun k hk => h k (List.mem_cons_of_mem _ hk)) (l.1 :: text)
    rw [List.flatMap_cons, List.map_cons, List.reverse_cons, List.append_assoc]
    exact hfirst.append hrest

/-- the recipe of a text is cooked to the text -/
theorem cook_lettersRecipe (text : String) : cook (lettersRecipe text) = .ok text := by
  have hturns := turns_letters (fun _ hl => find_letter text hl) []
  -- the letters are numbered from the end of the text, and the last one put is on top
  have htext : ((letters text).map Prod.fst).reverse ++ [] = text.toList := by
    rw [letters, List.zipIdx_map_fst, List.reverse_reverse, List.append_nil]
  rw [htext] at hturns
  have hcook := cook_plainRecipe (isFront_letters text) (letterSteps_readable text) hturns
  rw [String.ofList_toList] at hcook
  exact hcook

example : lettersRecipe "Hi" =
    "Letters.\n\nIngredients.\n105 letter0\n72 letter1\n\nMethod.\n" ++
      "Put letter0 into the mixing bowl.\nLiquefy contents of the mixing bowl.\n" ++
      "Put letter1 into the mixing bowl.\nLiquefy contents of the mixing bowl.\n" ++
      "Pour contents of the mixing bowl into the baking dish.\n\nServes 1.\n" := by
  decide +kernel

end Cookery

import Cookery.Proofs.Cooking.Spelling

/-!
# Lines of digits, with `Combine` and `Stir`

The lines are written from the last to the first, and each of them from its last digit to its
first.  A digit that is on top of the bowl already is made once more by combining it with a unit.
A line feed is put on top of the line that it ends, and stirred down below it.

* `digitLinesRecipe`     the recipe of some lines;
* `isFront_digits`       its ingredients are read;
* `turns_digitSteps`     the digits of a line, whatever the bowl spells before;
* `turns_linesSteps`     all the lines;
* `cook_digitLinesRecipe`   the recipe is cooked to the lines.
-/

namespace Cookery

/-! ## the recipe -/

def digitNames : List String :=
  ["zero", "one", "two", "three", "four", "five", "six", "seven", "eight", "nine"]

def digitName (d : Char) : String := digitNames.getD (d.toNat - 48) ""

def digitItems : List String :=
  digitNames.zipIdx.map (fun d => toString (48 + d.2) ++ " ml " ++ d.1) ++
    ["10 ml newline", "1 ml unity"]

/-- the digits `ds` one after the other, where `previous` was put before them -/
def digitSteps (previous : Option Char) : List Char → List Step
  | [] => []
  | d :: ds =>
    (if previous = some d then .combine "unity" else .put (digitName d)) :: digitSteps (some d) ds

def lineSteps (line : String) : List Step := digitSteps none line.toList.reverse

/-- the lines from the last to the first; a line feed is put and stirred in after each one but the
last -/
def linesSteps : List String → List Step
  | [] => []
  | [line] => lineSteps line
  | line :: next :: lines =>
    linesSteps (next :: lines) ++ (lineSteps line ++ [.put "newline", .stir line.length])

def digitLinesRecipe (lines : List String) : String :=
  plainRecipe "Fibonacci Numbers with Caramel Sauce."
    ["This recipe prints the first 100 Fibonacci numbers."] digitItems
    (linesSteps lines ++ [.liquefy, .pour])

/-! ## the ingredients -/

def digits : List Char := (List.range' 48 10).map Char.ofNat

theorem mem_digits {d : Char} (h : isDigit d = true) : d ∈ digits := by
  unfold isDigit at h
  rw [Bool.and_eq_true, decide_eq_true_eq, decide_eq_true_eq] at h
  have hlow : 48 ≤ d.toNat := h.1
  have hhigh : d.toNat ≤ 57 := h.2
  refine List.mem_map.mpr ⟨d.toNat, ?_, Char.ofNat_toNat d⟩
  rw [List.mem_range'_1]
  omega

/-- a liquid that is the character of its amount -/
def charIngredient (name : String) (c : Char) : Ingredient := ⟨name, some (.ofChar c), .liquid⟩

theorem toChar_charIngredient (name : String) (c : Char) :
    (charIngredient name c).toChar = .ok c :=
  Ingredient.toChar_eq_ok_iff.mpr ⟨rfl, _, rfl, Quantity.char?_ofChar c⟩

def unity : Ingredient := ⟨"unity", some ⟨1, by decide, by decide⟩, .liquid⟩

def digitShelf : List Ingredient :=
  digits.map (fun d => charIngredient (digitName d) d) ++ [charIngredient "newline" '\n', unity]

theorem digitItems_eq : digitItems = digitShelf.map Ingredient.line := by decide +kernel

theorem nodup_digitShelf : (digitShelf.map Ingredient.name).Nodup := by decide +kernel

/-- the names are single words -/
theorem digitShelf_names : ∀ i ∈ digitShelf,
    i.name.toList ≠ [] ∧ Legible i.name.toList ∧ Solid i.name.toList := by decide +kernel

theorem digitShelf_values : ∀ i ∈ digitShelf, ∀ q ∈ i.value, 0 ≤ q.val := by decide +kernel

theorem readable_of_mem_digitShelf {i : Ingredient} (h : i ∈ digitShelf) : i.Readable := by
  obtain ⟨hne, hlegible, hsolid⟩ := digitShelf_names i h
  exact ⟨hne, hsolid.noBlankFirst, hsolid.noBlankLast, hlegible.newline, digitShelf_values i h⟩

theorem find_of_mem_digitShelf {i : Ingredient} (h : i ∈ digitShelf) :
    (shelfTable digitShelf).find? i.name = some i :=
  Table.find?_storeBy_of_mem nodup_digitShelf h .empty

theorem mem_digitShelf {d : Char} (h : isDigit d = true) :
    charIngredient (digitName d) d ∈ digitShelf :=
  List.mem_append_left _ (List.mem_map_of_mem (mem_digits h))

theorem newline_mem_digitShelf : charIngredient "newline" '\n' ∈ digitShelf :=
  List.mem_append_right _ List.mem_cons_self

theorem unity_mem_digitShelf : unity ∈ digitShelf :=
  List.mem_append_right _ (List.mem_cons_of_mem _ List.mem_cons_self)

theorem isFront_digits :
    IsFront "Fibonacci Numbers with Caramel Sauce."
      ["This recipe prints the first 100 Fibonacci numbers."] digitItems digitShelf where
  lines := by
    intro l hl
    simp only [digitItems_eq, List.mem_cons, List.mem_append, List.mem_map, List.not_mem_nil,
      or_false] at hl
    rcases hl with rfl | rfl | ⟨i, hi, rfl⟩
    · exact ⟨by decide, by decide⟩
    · exact ⟨by decide, by decide⟩
    · exact isOneLine_line (readable_of_mem_digitShelf hi)
  remarks_skip := by decide
  items_text := by
    intro l hl
    rw [digitItems_eq] at hl
    obtain ⟨i, hi, rfl⟩ := List.mem_map.mp hl
    exact isTextLine_line (readable_of_mem_digitShelf hi)
  items_read := by
    rw [digitItems_eq, List.map_map]
    refine List.map_congr_left fun i hi => ?_
    rw [Function.comp_apply, ofLine_line (readable_of_mem_digitShelf hi)]
  names := nodup_digitShelf

/-! ## reading the steps -/

theorem readable_put_of_mem {i : Ingredient} (h : i ∈ digitShelf) :
    (Step.put i.name).action.Readable := by
  obtain ⟨hne, hlegible, hsolid⟩ := digitShelf_names i h
  exact ⟨⟨hne, hlegible⟩, hsolid.noBlankFirst, by decide⟩

theorem digitSteps_readable {ds : List Char} (hds : ∀ d ∈ ds, isDigit d = true)
    (previous : Option Char) : ∀ s ∈ digitSteps previous ds, s.action.Readable := by
  induction ds generalizing previous with
  | nil => exact List.forall_mem_nil _
  | cons d ds ih =>
    have hunity := readable_put_of_mem unity_mem_digitShelf
    have hdigit := readable_put_of_mem (mem_digitShelf (hds d List.mem_cons_self))
    intro s hs
    rcases List.mem_cons.mp hs with rfl | hs
    · split
      · exact hunity
      · exact hdigit
    · exact ih (fun e he => hds e (List.mem_cons_of_mem _ he)) (some d) s hs

theorem lineSteps_readable {line : String} (h : ∀ d ∈ line.toList, isDigit d = true) :
    ∀ s ∈ lineSteps line, s.action.Readable :=
  digitSteps_readable (fun d hd => h d (List.mem_reverse.mp hd)) none

theorem linesSteps_readable {lines : List String}
    (hdigits : ∀ line ∈ lines, ∀ d ∈ line.toList, isDigit d = true)
    (hlength : ∀ line ∈ lines, line.length ≤ countMax) :
    ∀ s ∈ linesSteps lines, s.action.Readable := by
  fun_induction linesSteps lines with
  | case1 => exact List.forall_mem_nil _
  | case2 line => exact lineSteps_readable (hdigits line List.mem_cons_self)
  | case3 line next lines ih =>
    intro s hs
    simp only [List.mem_append, List.mem_cons, List.not_mem_nil, or_false] at hs
    rcases hs with hs | hs | rfl | rfl
    · exact ih (fun l hl => hdigits l (List.mem_cons_of_mem _ hl))
        (fun l hl => hlength l (List.mem_cons_of_mem _ hl)) s hs
    · exact lineSteps_readable (hdigits line List.mem_cons_self) s hs
    · exact readable_put_of_mem newline_mem_digitShelf
    · exact ⟨by decide, hlength line List.mem_cons_self⟩

/-! ## cooking -/

/-- one digit: on top of the same digit it is combined, on top of anything else it is put -/
theorem turns_digit {d : Char} (hd : isDigit d = true) {previous : Option Char} {text : List Char}
    (hprevious : ∀ c ∈ previous, text.head? = some c) :
    Turns (shelfTable digitShelf)
      [if previous = some d then .combine "unity" else .put (digitName d)]
      (·.Spells text) (·.Spells (d :: text)) := by
  split
  · rename_i hsame
    have hunity := find_of_mem_digitShelf unity_mem_digitShelf
    obtain ⟨rest, rfl⟩ := List.head?_eq_some_iff.mp (hprevious d hsame)
    exact turns_combine hunity rfl rfl rfl
  · have hfind := find_of_mem_digitShelf (mem_digitShelf hd)
    exact turns_put hfind (toChar_charIngredient _ d)

/-- the digits come to stand before the text, the last of them first; `previous` is on top of the
bowl from one digit to the next -/
theorem turns_digitSteps {ds : List Char} (hds : ∀ d ∈ ds, isDigit d = true)
    (previous : Option Char) (text : List Char)
    (hprevious : ∀ c ∈ previous, text.head? = some c) :
    Turns (shelfTable digitShelf) (digitSteps previous ds) (·.Spells text)
      (·.Spells (ds.reverse ++ text)) := by
  induction ds generalizing previous text with
  | nil => exact Turns.nil _ _
  | cons d ds ih =>
    have hfirst := turns_digit (hds d List.mem_cons_self) hprevious
    have hrest := ih (fun e he => hds e (List.mem_cons_of_mem _ he)) (some d) (d :: text)
      fun c hc => hc
    rw [List.reverse_cons, List.append_assoc]
    exact hfirst.append hrest

theorem turns_lineSteps {line : String} (h : ∀ d ∈ line.toList, isDigit d = true)
    (text : List Char) :
    Turns (shelfTable digitShelf) (lineSteps line) (·.Spells text)
      (·.Spells (line.toList ++ text)) := by
  have hturns := turns_digitSteps (fun d hd => h d (List.mem_reverse.mp hd)) none text nofun
  rw [List.reverse_reverse] at hturns
  exact hturns

/-- a line feed put on top of a line sinks below it -/
theorem turns_lineFeed (line : String) (text : List Char) :
    Turns (shelfTable digitShelf) [.put "newline", .stir line.length]
      (·.Spells (line.toList ++ text)) (·.Spells (line.toList ++ '\n' :: text)) := by
  have hnewline := find_of_mem_digitShelf newline_mem_digitShelf
  have hput : Turns (shelfTable digitShelf) [.put "newline"] (·.Spells (line.toList ++ text))
      (·.Spells ('\n' :: (line.toList ++ text))) :=
    turns_put hnewline (toChar_charIngredient _ _)
  have hstir : Turns (shelfTable digitShelf) [.stir line.length] _ _ :=
    turns_stir '\n' (line.toList ++ text) line.length
  -- stirring for the length of the line takes the line feed past the line and no further
  have htake : (line.toList ++ text).take line.length = line.toList := by
    rw [← String.length_toList, List.take_left]
  have hdrop : (line.toList ++ text).drop line.length = text := by
    rw [← String.length_toList, List.drop_left]
  rw [htake, hdrop] at hstir
  exact hput.append hstir

theorem turns_linesSteps {lines : List String}
    (h : ∀ line ∈ lines, ∀ d ∈ line.toList, isDigit d = true) :
    Turns (shelfTable digitShelf) (linesSteps lines) (·.Spells [])
      (·.Spells ("\n".intercalate lines).toList) := by
  fun_induction linesSteps lines with
  | case1 => exact Turns.nil _ _
  | case2 line =>
    have hline := turns_lineSteps (h line List.mem_cons_self) []
    rw [List.append_nil] at hline
    rw [String.intercalate_singleton]
    exact hline
  | case3 line next lines ih =>
    have hrest := ih fun l hl => h l (List.mem_cons_of_mem _ hl)
    have hline := turns_lineSteps (h line List.mem_cons_self)
      ("\n".intercalate (next :: lines)).toList
    have hjoin : ("\n".intercalate (line :: next :: lines)).toList =
        line.toList ++ '\n' :: ("\n".intercalate (next :: lines)).toList := by
      rw [String.intercalate_cons_cons]
      simp
    rw [hjoin]
    exact hrest.append (hline.append (turns_lineFeed line _))

/-- lines of digits are cooked to the lines, one below the other; minutes beyond `countMax` would be
read as `countMax`, so no line is longer than that -/
theorem cook_digitLinesRecipe {lines : List String}
    (hdigits : ∀ line ∈ lines, ∀ d ∈ line.toList, isDigit d = true)
    (hlength : ∀ line ∈ lines, line.length ≤ countMax) :
    cook (digitLinesRecipe lines) = .ok ("\n".intercalate lines) := by
  have hsteps : ∀ s ∈ linesSteps lines ++ [.liquefy], s.action.Readable := by
    intro s hs
    rcases List.mem_append.mp hs with hs | hs
    · exact linesSteps_readable hdigits hlength s hs
    · obtain rfl := List.mem_singleton.mp hs
      exact (by decide : 0 < countMax)
  have hturns := (turns_linesSteps hdigits).append turns_liquefy
  have hcook := cook_plainRecipe isFront_digits hsteps hturns
  rw [List.append_assoc, String.ofList_toList] at hcook
  exact hcook

theorem cook_digitLinesRecipe_repeated :
    (∀ line ∈ ["1123", "", "55"], ∀ d ∈ line.toList, isDigit d = true) ∧
      (∀ line ∈ ["1123", "", "55"], line.length ≤ countMax) ∧
      cook (digitLinesRecipe ["1123", "", "55"]) = .ok "1123\n\n55" := by
  have hdigits : ∀ line ∈ ["1123", "", "55"], ∀ d ∈ line.toList, isDigit d = true := by
    have hall : (["1123", "", "55"].all fun line => line.toList.all isDigit) = true := by decide
    intro line hline
    exact List.all_eq_true.mp (List.all_eq_true.mp hall line hline)
  have hlength : ∀ line ∈ ["1123", "", "55"], line.length ≤ countMax := by decide
  exact ⟨hdigits, hlength, cook_digitLinesRecipe hdigits hlength⟩

example : linesSteps ["1123", "", "55"] =
    [.put "five", .combine "unity", .put "newline", .stir 0, .put "three", .put "two", .put "one",
      .combine "unity", .put "newline", .stir 4] := by decide +kernel

end Cookery

import Cookery.Proofs.Cooking.Checked

/-!
# The text of a statement names it

The text of a statement puts free words next to fixed ones, and nothing marks where a word ends.
Two cuts of the text are certain all the same, as a word has no blanks: the one after the first word
and the one before the last word.

* `Solid.first_inj`, `Solid.last_inj`   the two cuts, and `Solid.first_cut`, other cuts at a blank;
* `Action.text_inj`                     actions, by their verb and by what they count;
* `text_act_ne_loopStart`, `text_act_ne_loopEnd`, `text_loopStart_ne_loopEnd`   texts of different
                                        kinds are different;
* `Statement.Readable.text_inj`         readable statements with the same text are the same;
* `text_inj_of_parse`                   so are statements of recipes that were read.
-/

namespace Cookery

/-! ## words at the two ends of a text -/

section
variable {word word' rest rest' : List Char}

theorem Solid.reverse (h : Solid word) : Solid word.reverse :=
  fun c hc => h c (List.mem_reverse.mp hc)

theorem Solid.space_not_mem (h : Solid word) : ' ' ∉ word := fun hmem =>
  absurd (h ' ' hmem) (by decide)

theorem Solid.first_inj (h : Solid word) (h' : Solid word')
    (heq : word ++ ' ' :: rest = word' ++ ' ' :: rest') : word = word' ∧ rest = rest' := by
  have hblank : ∀ r : List Char, ∀ c ∈ (' ' :: r).head?, ¬ isBlank c = false :=
    forall_mem_head_cons (¬ isBlank · = false) (by decide)
  obtain ⟨hword, hrest⟩ := run_inj heq h (hblank rest) h' (hblank rest')
  exact ⟨hword, (List.cons.inj hrest).2⟩

/-- a blank stands after the first word, or further on in the rest -/
theorem Solid.first_cut {before after : List Char} (h : Solid word)
    (heq : word ++ ' ' :: rest = before ++ ' ' :: after) :
    rest = after ∨ ∃ front, rest = front ++ ' ' :: after := by
  rcases List.append_eq_append_iff.mp heq with ⟨front, -, hrest⟩ | ⟨front, hword, hafter⟩
  · cases front with
    | nil => exact .inl (List.cons.inj hrest).2
    | cons c front => exact .inr ⟨front, (List.cons.inj hrest).2⟩
  · cases front with
    | nil => exact .inl (List.cons.inj hafter).2.symm
    | cons c front =>
      obtain ⟨rfl, -⟩ := List.cons.inj hafter
      have hblank : ' ' ∈ word := hword ▸ List.mem_append_right before List.mem_cons_self
      exact absurd hblank h.space_not_mem

theorem Solid.last_inj (h : Solid word) (h' : Solid word')
    (heq : rest ++ ' ' :: word = rest' ++ ' ' :: word') : rest = rest' ∧ word = word' := by
  have hturned : word.reverse ++ ' ' :: rest.reverse = word'.reverse ++ ' ' :: rest'.reverse := by
    have hreverse := congrArg List.reverse heq
    rw [List.reverse_append, List.reverse_cons, List.append_assoc, List.reverse_append,
      List.reverse_cons, List.append_assoc] at hreverse
    exact hreverse
  obtain ⟨hword, hrest⟩ := h.reverse.first_inj h'.reverse hturned
  exact ⟨List.reverse_inj.mp hrest, List.reverse_inj.mp hword⟩

end

theorem numeral_inj {m n : Nat} (h : numeral m = numeral n) : m = n := by
  rw [← numberOf_numeral m, h, numberOf_numeral]

/-! ## actions -/

namespace Action

/-- what stands between the verb and the last word in the text of an action -/
def textMiddle : Action → List Char
  | .put name _ => name.toList ++ " into mixing bowl".toList
  | .combine name _ => name.toList ++ " into mixing bowl".toList
  | .liquefy _ => "mixing bowl".toList
  | .pour bowl _ => "mixing bowl #".toList ++ (numeral (bowl + 1) ++ " into baking dish".toList)
  | .stir bowl minutes =>
    "mixing bowl #".toList ++ (numeral (bowl + 1) ++ ' ' :: ("for ".toList ++ numeral minutes))

def lastWord : Action → List Char
  | .put _ bowl => '#' :: numeral (bowl + 1)
  | .combine _ bowl => '#' :: numeral (bowl + 1)
  | .liquefy bowl => '#' :: numeral (bowl + 1)
  | .pour _ dish => '#' :: numeral (dish + 1)
  | .stir _ _ => "minutes".toList

theorem toList_text (a : Action) :
    a.text.toList = (a.verb.name.toList ++ ' ' :: a.textMiddle) ++ ' ' :: a.lastWord := by
  cases a with
  | put name bowl =>
    show ("Put " ++ name ++ " into " ++ ("mixing bowl #" ++ toString (bowl + 1))).toList =
      ("Put".toList ++ ' ' :: (name.toList ++ " into mixing bowl".toList)) ++ ' ' ::
        '#' :: numeral (bowl + 1)
    simp only [String.toList_append, List.append_assoc, List.cons_append]
    rfl
  | combine name bowl =>
    show ("Combine " ++ name ++ " into " ++ ("mixing bowl #" ++ toString (bowl + 1))).toList =
      ("Combine".toList ++ ' ' :: (name.toList ++ " into mixing bowl".toList)) ++ ' ' ::
        '#' :: numeral (bowl + 1)
    simp only [String.toList_append, List.append_assoc, List.cons_append]
    rfl
  | liquefy bowl =>
    show ("Liquefy " ++ ("mixing bowl #" ++ toString (bowl + 1))).toList =
      ("Liquefy".toList ++ ' ' :: "mixing bowl".toList) ++ ' ' :: '#' :: numeral (bowl + 1)
    simp only [String.toList_append]
    rfl
  | pour bowl dish =>
    show ("Pour " ++ ("mixing bowl #" ++ toString (bowl + 1)) ++ " into " ++
        ("baking dish #" ++ toString (dish + 1))).toList =
      ("Pour".toList ++ ' ' ::
        ("mixing bowl #".toList ++ (numeral (bowl + 1) ++ " into baking dish".toList))) ++ ' ' ::
          '#' :: numeral (dish + 1)
    simp only [String.toList_append, List.append_assoc, List.cons_append]
    rfl
  | stir bowl minutes =>
    show ("Stir " ++ ("mixing bowl #" ++ toString (bowl + 1)) ++ " for " ++ toString minutes ++
        " minutes").toList =
      ("Stir".toList ++ ' ' :: ("mixing bowl #".toList ++
        (numeral (bowl + 1) ++ ' ' :: ("for ".toList ++ numeral minutes)))) ++ ' ' ::
          "minutes".toList
    simp only [String.toList_append, List.append_assoc, List.cons_append]
    rfl

theorem solid_verb (a : Action) : Solid a.verb.name.toList := a.verb.name_facts.2.1

theorem solid_lastWord (a : Action) : Solid a.lastWord := by
  have hnumber : ∀ n, Solid ('#' :: numeral n) := fun n =>
    List.forall_mem_cons.mpr ⟨by decide, solid_numeral n⟩
  cases a with
  | put _ bowl => exact hnumber _
  | combine _ bowl => exact hnumber _
  | liquefy bowl => exact hnumber _
  | pour _ dish => exact hnumber _
  | stir _ _ => exact (by decide : Solid "minutes".toList)

theorem text_inj {a b : Action} (h : a.text = b.text) : a = b := by
  have hchars := congrArg String.toList h
  rw [a.toList_text, b.toList_text] at hchars
  obtain ⟨hfront, hlast⟩ := a.solid_lastWord.last_inj b.solid_lastWord hchars
  obtain ⟨hname, hmiddle⟩ := a.solid_verb.first_inj b.solid_verb hfront
  have hverb : a.verb = b.verb := by
    rw [← Option.some_inj, ← a.verb.name_facts.2.2, ← b.verb.name_facts.2.2,
      String.toList_inj.mp hname]
  match a, b, hverb with
  | .put name bowl, .put name' bowl', _ =>
    have hname := List.append_cancel_right hmiddle
    have hbowl := numeral_inj (List.cons.inj hlast).2
    rw [String.toList_inj.mp hname, Nat.succ.inj hbowl]
  | .combine name bowl, .combine name' bowl', _ =>
    have hname := List.append_cancel_right hmiddle
    have hbowl := numeral_inj (List.cons.inj hlast).2
    rw [String.toList_inj.mp hname, Nat.succ.inj hbowl]
  | .liquefy bowl, .liquefy bowl', _ =>
    have hbowl := numeral_inj (List.cons.inj hlast).2
    rw [Nat.succ.inj hbowl]
  | .pour bowl dish, .pour bowl' dish', _ =>
    have hbowl := numeral_inj (List.append_cancel_right (List.append_cancel_left hmiddle))
    have hdish := numeral_inj (List.cons.inj hlast).2
    rw [Nat.succ.inj hbowl, Nat.succ.inj hdish]
  | .stir bowl minutes, .stir bowl' minutes', _ =>
    obtain ⟨hbowl, hfor⟩ := (solid_numeral _).first_inj (solid_numeral _)
      (List.append_cancel_left hmiddle)
    have hminutes := numeral_inj (List.append_cancel_left hfor)
    rw [Nat.succ.inj (numeral_inj hbowl), hminutes]

/-- the last word of an action does not stand after `until` -/
theorem not_until_suffix (a : Action) :
    ¬ "until".toList <:+ a.verb.name.toList ++ ' ' :: a.textMiddle := by
  have hmiddle : ' ' :: a.textMiddle <:+ a.verb.name.toList ++ ' ' :: a.textMiddle :=
    List.suffix_append _ _
  have hother : ∀ tail, tail <:+ ' ' :: a.textMiddle → ¬ "until".toList <:+ tail →
      ¬ tail <:+ "until".toList →
        ¬ "until".toList <:+ a.verb.name.toList ++ ' ' :: a.textMiddle := by
    intro tail htail hleft hright huntil
    rcases List.suffix_or_suffix_of_suffix huntil (htail.trans hmiddle) with h | h
    · exact hleft h
    · exact hright h
  cases a with
  | put name bowl =>
    exact hother " into mixing bowl".toList (List.suffix_append (' ' :: name.toList) _)
      (by decide) (by decide)
  | combine name bowl =>
    exact hother " into mixing bowl".toList (List.suffix_append (' ' :: name.toList) _)
      (by decide) (by decide)
  | liquefy bowl => exact hother " mixing bowl".toList (List.suffix_refl _) (by decide) (by decide)
  | pour bowl dish =>
    refine hother " into baking dish".toList ?_ (by decide) (by decide)
    exact (List.suffix_append _ _).trans (List.suffix_append " mixing bowl #".toList _)
  | stir bowl minutes =>
    have hletters : "until".toList.all (!isDigit ·) = true := by decide
    have hdigits : ∀ c ∈ numeral minutes, c ∉ "until".toList := by
      intro c hc hmem
      have hletter := List.all_eq_true.mp hletters c hmem
      rw [isDigit_of_mem_numeral hc] at hletter
      cases hletter
    obtain ⟨d, hd⟩ := List.exists_mem_of_ne_nil _ (numeral_ne_nil minutes)
    refine hother (numeral minutes) ?_ (fun h => ?_) fun h => hdigits d hd (h.subset hd)
    · have hfor : numeral minutes <:+ ' ' :: ("for ".toList ++ numeral minutes) :=
        List.suffix_append " for ".toList _
      exact hfor.trans ((List.suffix_append _ _).trans
        (List.suffix_append " mixing bowl #".toList _))
    · exact hdigits 'u' (h.subset List.mem_cons_self) List.mem_cons_self

end Action

/-! ## loops -/

/-- the text of a loop end up to `until` -/
def untilFront : Option String → List Char
  | none => []
  | some name => name.toList ++ [' ']

theorem untilFront_inj {name? other? : Option String} (h : untilFront name? = untilFront other?) :
    name? = other? := by
  cases name? with
  | none =>
    cases other? with
    | none => rfl
    | some other => cases List.append_ne_nil_of_right_ne_nil _ (List.cons_ne_nil _ _) h.symm
  | some name =>
    cases other? with
    | none => cases List.append_ne_nil_of_right_ne_nil _ (List.cons_ne_nil _ _) h
    | some other => rw [String.toList_inj.mp (List.append_cancel_right h)]

namespace Statement

theorem toList_text_act (a : Action) :
    (Statement.act a).text.toList =
      (a.verb.name.toList ++ ' ' :: a.textMiddle) ++ ' ' :: a.lastWord :=
  a.toList_text

theorem toList_text_loopStart (verb name : String) :
    (Statement.loopStart verb name).text.toList =
      verb.toList ++ ' ' :: ("the ".toList ++ name.toList) := by
  show (verb ++ " the " ++ name).toList = _
  simp only [String.toList_append, List.append_assoc]
  rfl

theorem toList_text_loopEnd (verbed : String) (name? : Option String) :
    (Statement.loopEnd verbed name?).text.toList =
      (untilFront name? ++ "until".toList) ++ ' ' :: verbed.toList := by
  cases name? with
  | none =>
    show ("until " ++ verbed).toList = _
    rw [String.toList_append]
    rfl
  | some name =>
    show (name ++ " until " ++ verbed).toList = (name.toList ++ [' '] ++ _) ++ _
    simp only [String.toList_append, List.append_assoc]
    rfl

end Statement

section
variable {verb name verbed : String} {name? : Option String}

theorem text_act_ne_loopStart (a : Action) (h : (Statement.loopStart verb name).Readable) :
    (Statement.act a).text ≠ (Statement.loopStart verb name).text := by
  obtain ⟨⟨_, hsolid, hverb⟩, _⟩ := h
  intro heq
  have hchars := congrArg String.toList heq
  rw [Statement.toList_text_act, List.append_assoc, List.cons_append,
    Statement.toList_text_loopStart] at hchars
  have hname := (a.solid_verb.first_inj hsolid hchars).1
  rw [← String.toList_inj.mp hname, a.verb.name_facts.2.2] at hverb
  cases hverb

theorem text_act_ne_loopEnd (a : Action) (h : (Statement.loopEnd verbed name?).Readable) :
    (Statement.act a).text ≠ (Statement.loopEnd verbed name?).text := by
  obtain ⟨⟨_, hsolid⟩, _⟩ := h
  intro heq
  have hchars := congrArg String.toList heq
  rw [Statement.toList_text_act, Statement.toList_text_loopEnd] at hchars
  have hfront := (a.solid_lastWord.last_inj hsolid hchars).1
  exact a.not_until_suffix ⟨_, hfront.symm⟩

/-- what could be taken for the end of a loop is not read as the start of one -/
theorem text_loopStart_ne_loopEnd (h : (Statement.loopStart verb name).Readable)
    (h' : (Statement.loopEnd verbed name?).Readable) :
    (Statement.loopStart verb name).text ≠ (Statement.loopEnd verbed name?).text := by
  obtain ⟨⟨_, hsolid, _⟩, hname, _, hend⟩ := h
  obtain ⟨⟨hword, hsolid'⟩, _⟩ := h'
  have hnoEnding := not_isLoopEnding hend (legible_append (by decide) hname.legible)
  intro heq
  have hchars := congrArg String.toList heq
  rw [Statement.toList_text_loopStart, Statement.toList_text_loopEnd] at hchars
  cases name? with
  | none =>
    -- then all that follows the first word is the last word, which has no blanks
    have huntil : Solid "until".toList := by decide
    obtain ⟨-, hrest⟩ := hsolid.first_inj huntil hchars
    have hblank : ' ' ∈ verbed.toList := hrest ▸ List.mem_append_left _ (by decide)
    exact hsolid'.space_not_mem hblank
  | some before =>
    have hcut : verb.toList ++ ' ' :: ("the ".toList ++ name.toList) =
        before.toList ++ ' ' :: ("until ".toList ++ verbed.toList) := by
      rw [hchars, untilFront]
      simp only [List.append_assoc]
      rfl
    rcases hsolid.first_cut hcut with hthe | ⟨front, hthe⟩
    · cases (List.cons.inj hthe).1
    -- ` until ` stands inside the argument of the verb, which then ends a loop
    · exact hnoEnding ⟨front, ' ', verbed.toList, by decide, hword.ne, hsolid', hthe⟩

theorem text_loopEnd_inj {verbed' : String} {other? : Option String}
    (h : (Statement.loopEnd verbed name?).Readable)
    (h' : (Statement.loopEnd verbed' other?).Readable)
    (heq : (Statement.loopEnd verbed name?).text = (Statement.loopEnd verbed' other?).text) :
    Statement.loopEnd verbed name? = .loopEnd verbed' other? := by
  have hchars := congrArg String.toList heq
  rw [Statement.toList_text_loopEnd, Statement.toList_text_loopEnd] at hchars
  obtain ⟨hfront, hword⟩ := h.1.2.last_inj h'.1.2 hchars
  rw [untilFront_inj (List.append_cancel_right hfront), String.toList_inj.mp hword]

theorem text_loopStart_inj {verb' name' : String}
    (h : (Statement.loopStart verb name).Readable) (h' : (Statement.loopStart verb' name').Readable)
    (heq : (Statement.loopStart verb name).text = (Statement.loopStart verb' name').text) :
    Statement.loopStart verb name = .loopStart verb' name' := by
  have hchars := congrArg String.toList heq
  rw [Statement.toList_text_loopStart, Statement.toList_text_loopStart] at hchars
  obtain ⟨hverb, hthe⟩ := h.1.2.1.first_inj h'.1.2.1 hchars
  rw [String.toList_inj.mp hverb, String.toList_inj.mp (List.append_cancel_left hthe)]

end

/-! ## statements that were read -/

theorem Statement.Readable.text_inj {s s' : Statement} (h : s.Readable) (h' : s'.Readable)
    (heq : s.text = s'.text) : s = s' := by
  match s, s' with
  | .act a, .act b => exact congrArg Statement.act (Action.text_inj heq)
  | .act a, .loopStart _ _ => exact absurd heq (text_act_ne_loopStart a h')
  | .act a, .loopEnd _ _ => exact absurd heq (text_act_ne_loopEnd a h')
  | .loopStart _ _, .act b => exact absurd heq.symm (text_act_ne_loopStart b h)
  | .loopStart _ _, .loopStart _ _ => exact text_loopStart_inj h h' heq
  | .loopStart _ _, .loopEnd _ _ => exact absurd heq (text_loopStart_ne_loopEnd h h')
  | .loopEnd _ _, .act b => exact absurd heq.symm (text_act_ne_loopEnd b h)
  | .loopEnd _ _, .loopStart _ _ => exact absurd heq.symm (text_loopStart_ne_loopEnd h' h)
  | .loopEnd _ _, .loopEnd _ _ => exact text_loopEnd_inj h h' heq

/-- a statement stands in the method of one of the preparations -/
def Recipe.Says (r : Recipe) (st : Statement) : Prop :=
  ∃ key p, r.preparation? key = some p ∧ st ∈ p.method

theorem readable_of_parse {source : String} {r : Recipe} (h : Recipe.parse source = .ok r)
    {st : Statement} (hst : r.Says st) : st.Readable := by
  obtain ⟨d, hform, rfl⟩ := (recipe_parse_iff source r).mp h
  have hread := hform.readable (unbroken_textLines source)
  obtain ⟨key, p, hp, hmem⟩ := hst
  rcases (Document.preparation?_recipe hread.titled key p).mp hp with ⟨haux, _⟩ | ⟨_, rfl⟩
  · exact (hread.auxiliaries p haux).1.method st hmem
  · exact hread.main.method st hmem

/-- statements of recipes that were read can be shown with their containers counted from one, and
two that are shown by the same text are the same -/
theorem text_inj_of_parse {source source' : String} {r r' : Recipe}
    (h : Recipe.parse source = .ok r) (h' : Recipe.parse source' = .ok r') {s s' : Statement}
    (hs : r.Says s) (hs' : r'.Says s') :
    s.text? = some s.text ∧ s'.text? = some s'.text ∧ (s.text = s'.text ↔ s = s') := by
  have hread := readable_of_parse h hs
  have hread' := readable_of_parse h' hs'
  refine ⟨Statement.text?_eq hread.inRange, Statement.text?_eq hread'.inRange, ?_, ?_⟩
  · exact hread.text_inj hread'
  · rintro rfl
    rfl

theorem text_doughText :
    ∃ r, Recipe.parse doughText = .ok r ∧ r.Says (.loopStart "Knead" "rows") ∧
      r.Says (.loopEnd "kneaded" none) ∧
      (Statement.loopStart "Knead" "rows").text ≠ (Statement.loopEnd "kneaded" none).text := by
  have hmain : (Document.recipe ⟨1, doughMain, []⟩).preparation? mainKey = some doughMain := rfl
  have hstart : (Document.recipe ⟨1, doughMain, []⟩).Says (.loopStart "Knead" "rows") :=
    ⟨mainKey, doughMain, hmain, by decide⟩
  have hend : (Document.recipe ⟨1, doughMain, []⟩).Says (.loopEnd "kneaded" none) :=
    ⟨mainKey, doughMain, hmain, by decide⟩
  refine ⟨_, parse_doughText, hstart, hend, fun heq => ?_⟩
  cases (text_inj_of_parse parse_doughText parse_doughText hstart hend).2.2.mp heq

end Cookery

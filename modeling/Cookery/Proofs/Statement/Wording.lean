import Cookery.Proofs.Statement.Sentences

/-!
# The wordings of a sentence

What may follow a verb, written as data: each choice that the writer of a sentence has is a field.
A sentence is read if and only if it has a wording that suits its verb, it has one wording only, and
the statement read is the one the wording means.

* `Wording`, `Wording.text`      what may follow a verb, and how it is written;
* `Wording.Suits`                after which verbs;
* `Wording.meaning?`             what is meant; `none` if there is a 0th container;
* `Wording.decode_text`          every wording is read as it is meant;
* `exists_wording`               what has no wording is no statement;
* `Wording.text_inj`             two wordings of one verb are written differently;
* `decode_eq_ok_iff_wording`     the three together.
-/

namespace Cookery

/-! ## wordings -/

/-- a name: some text on one line -/
@[ext] structure Name where
  chars : List Char
  ne : chars ≠ []
  one_line : '\n' ∉ chars

/-- a word: some text without blanks -/
@[ext] structure Word where
  chars : List Char
  ne : chars ≠ []
  solid : Solid chars

/-- what stands before `until`: a text on one line and a blank, which may be a line feed -/
@[ext] structure Front where
  before : List Char
  blank : Char
  one_line : '\n' ∉ before
  is_blank : isBlank blank = true

inductive Wording where
  /-- `x into [the] [2nd] mixing bowl` -/
  | into (name : Name) (bowl : Place)
  /-- `[the] contents of the [2nd] mixing bowl` -/
  | contents (the : Bool) (ordinal? : Option Ordinal)
  /-- `contents of [the] [2nd] mixing bowl into [the] [3rd] baking dish` -/
  | transfer (bowl dish : Place)
  /-- `[[the] [2nd] mixing bowl] for 3 minutes` -/
  | time (place? : Option Place) (minutes : Digits) (plural : Bool)
  /-- `[[the] x] until verbed` -/
  | ending (front? : Option Front) (verbed : Word)
  /-- `the x` -/
  | start (name : Name)

/-- a bowl that may be missing, and the space after it -/
def bowlPart : Option Place → List Char
  | none => []
  | some p => p.text .bowl ++ " ".toList

def frontText : Option Front → List Char
  | none => []
  | some f => f.before ++ [f.blank]

def Wording.text : Wording → List Char
  | .into name bowl => name.chars ++ (" into ".toList ++ bowl.text .bowl)
  | .contents the ordinal? =>
    theText the ++ ("contents of the ".toList ++ (ordinalText ordinal? ++ Noun.bowl.text))
  | .transfer bowl dish =>
    "contents of ".toList ++ (bowl.text .bowl ++ (" into ".toList ++ dish.text .dish))
  | .time place? minutes plural => bowlPart place? ++ timeText minutes plural
  | .ending front? verbed => frontText front? ++ ("until ".toList ++ verbed.chars)
  | .start name => "the ".toList ++ name.chars

/-- a verb without a form of its own -/
def IsLoopVerb (verb : String) : Prop :=
  verb ∉ ["Put", "Combine", "Liquefy", "Liquify", "Pour", "Stir"]

/-- the verbs that a wording follows; the end of a loop goes before the start of one -/
def Wording.Suits (verb : String) : Wording → Prop
  | .into _ _ => verb = "Put" ∨ verb = "Combine"
  | .contents _ _ => verb = "Liquefy" ∨ verb = "Liquify"
  | .transfer _ _ => verb = "Pour"
  | .time _ _ _ => verb = "Stir"
  | .ending _ _ => IsLoopVerb verb
  | .start name =>
    IsLoopVerb verb ∧ ∀ front? verbed, (Wording.ending front? verbed).text ≠ (start name).text

/-- the ingredient that stands before `until`: trimmed, one leading `the` left out; `none` if there
is nothing left -/
def namedBefore (cs : List Char) : Option String :=
  let name := if "the ".toList <+: trim cs then (trim cs).drop 4 else trim cs
  if name = [] then none else some (String.ofList name)

/-- the statement meant; `none` if a container is called the 0th -/
def Wording.meaning? (verb : String) : Wording → Option Statement
  | .into name bowl => (ordinalNumber? bowl.ordinal?).map fun n =>
    .act (if verb = "Put" then .put (String.ofList name.chars) n
      else .combine (String.ofList name.chars) n)
  | .contents _ ordinal? => (ordinalNumber? ordinal?).map fun n => .act (.liquefy n)
  | .transfer bowl dish => (ordinalNumber? bowl.ordinal?).bind fun n =>
    (ordinalNumber? dish.ordinal?).map fun m => .act (.pour n m)
  | .time place? minutes _ => (ordinalNumber? (place?.bind Place.ordinal?)).map fun n =>
    .act (.stir n (countOf minutes.chars))
  | .ending front? verbed =>
    some (.loopEnd (String.ofList verbed.chars) (front?.bind fun f => namedBefore f.before))
  | .start name => some (.loopStart verb (String.ofList name.chars))

/-! ## the forms read what is written, and nothing else -/

theorem putForm?_text (name : Name) (bowl : Place) :
    putForm? (Wording.into name bowl).text = some (name.chars, ordinalDigits bowl.ordinal?) :=
  putForm?_into name.ne name.one_line (whole?_bowl_text bowl)

theorem exists_of_putForm? {cs name : List Char} {ds? : Option (List Char)}
    (h : putForm? cs = some (name, ds?)) : ∃ name bowl, cs = (Wording.into name bowl).text := by
  obtain ⟨hne, hline, t, hcs, hbowl⟩ := putForm?_eq_some h
  obtain ⟨bowl, -, ht⟩ := @exists_of_container? .bowl _ _ _ (whole?_eq_some hbowl)
  rw [List.append_nil] at ht
  refine ⟨⟨name, hne, hline⟩, bowl, ?_⟩
  rw [hcs, ht]
  rfl

theorem liquefyForm?_text (the : Bool) (ordinal? : Option Ordinal) :
    liquefyForm? (Wording.contents the ordinal?).text = some (ordinalDigits ordinal?) :=
  liquefyForm?_contents the ordinal?

theorem exists_of_liquefyForm? {cs : List Char} {ds? : Option (List Char)}
    (h : liquefyForm? cs = some ds?) :
    ∃ the ordinal?, cs = (Wording.contents the ordinal?).text := by
  obtain ⟨the, hthe⟩ := exists_theText cs
  obtain ⟨r, hr, h⟩ := Option.bind_eq_some_iff.mp h
  cases ho : ordinalMaybe r with
  | mk ds r' =>
    rw [ho] at h
    dsimp only at h
    split at h
    · rename_i hnoun
      obtain ⟨ordinal?, -, hordinal⟩ := exists_of_ordinalMaybe ho
      refine ⟨the, ordinal?, ?_⟩
      rw [hthe, after?_eq_some_iff.mp hr, hordinal, hnoun]
      rfl
    · cases h

theorem pourForm?_text (bowl dish : Place) :
    pourForm? (Wording.transfer bowl dish).text =
      some (ordinalDigits bowl.ordinal?, ordinalDigits dish.ordinal?) :=
  pourForm?_transfer bowl dish

theorem exists_of_pourForm? {cs : List Char} {found : Option (List Char) × Option (List Char)}
    (h : pourForm? cs = some found) : ∃ bowl dish, cs = (Wording.transfer bowl dish).text := by
  obtain ⟨r, hr, h⟩ := Option.bind_eq_some_iff.mp h
  obtain ⟨⟨ds, r'⟩, hbowl, h⟩ := Option.bind_eq_some_iff.mp h
  obtain ⟨r'', hinto, h⟩ := Option.bind_eq_some_iff.mp h
  obtain ⟨ds', hdish, -⟩ := Option.bind_eq_some_iff.mp h
  obtain ⟨bowl, -, hb⟩ := @exists_of_container? .bowl _ _ _ hbowl
  obtain ⟨dish, -, hd⟩ := @exists_of_container? .dish _ _ _ (whole?_eq_some hdish)
  refine ⟨bowl, dish, ?_⟩
  rw [after?_eq_some_iff.mp hr, hb, after?_eq_some_iff.mp hinto, hd, List.append_nil]
  rfl

theorem exists_of_minutes? {cs ds : List Char} (h : minutes? cs = some ds) :
    ∃ minutes plural, cs = timeText minutes plural := by
  obtain ⟨r, hr, h⟩ := Option.bind_eq_some_iff.mp h
  obtain ⟨⟨ds', r'⟩, hrun, h⟩ := Option.bind_eq_some_iff.mp h
  obtain ⟨minutes, -, hdigits⟩ := exists_of_digitRun? hrun
  dsimp only at h
  rw [after?_eq_some_iff.mp hr, hdigits]
  split at h
  · rename_i hunit
    rcases hunit with rfl | rfl
    · exact ⟨minutes, false, rfl⟩
    · exact ⟨minutes, true, rfl⟩
  · cases h

theorem stirForm?_text (place? : Option Place) (minutes : Digits) (plural : Bool) :
    stirForm? (Wording.time place? minutes plural).text =
      some (ordinalDigits (place?.bind Place.ordinal?), minutes.chars) := by
  cases place? with
  | none => exact stirForm?_time minutes plural
  | some p =>
    have hform := stirForm?_bowl p minutes plural
    rw [← List.append_assoc] at hform
    exact hform

theorem exists_of_stirForm? {cs : List Char} {found : Option (List Char) × List Char}
    (h : stirForm? cs = some found) :
    ∃ place? minutes plural, cs = (Wording.time place? minutes plural).text := by
  unfold stirForm? at h
  split at h
  · rename_i hplace
    obtain ⟨_, htime, -⟩ := Option.map_eq_some_iff.mp h
    obtain ⟨⟨ds, r⟩, hbowl, hspace⟩ := Option.bind_eq_some_iff.mp hplace
    obtain ⟨r', hafter, he⟩ := Option.map_eq_some_iff.mp hspace
    obtain ⟨rfl, rfl⟩ := Prod.mk.inj he
    obtain ⟨p, -, hcs⟩ := @exists_of_container? .bowl _ _ _ hbowl
    obtain ⟨minutes, plural, ht⟩ := exists_of_minutes? htime
    refine ⟨some p, minutes, plural, ?_⟩
    rw [hcs, after?_eq_some_iff.mp hafter, ht, ← List.append_assoc]
    rfl
  · obtain ⟨_, htime, -⟩ := Option.map_eq_some_iff.mp h
    obtain ⟨minutes, plural, ht⟩ := exists_of_minutes? htime
    exact ⟨none, minutes, plural, ht⟩

/-! ## loops -/

theorem untilIngredient_eq (cs : List Char) : untilIngredient cs = namedBefore cs := by
  unfold untilIngredient namedBefore
  have hname : afterMaybe "the ".toList (trim cs) =
      if "the ".toList <+: trim cs then (trim cs).drop 4 else trim cs := by
    by_cases hthe : "the ".toList <+: trim cs
    · obtain ⟨r, hr⟩ := hthe
      rw [← hr, afterMaybe_append, if_pos (List.prefix_append _ _)]
      rfl
    · rw [if_neg hthe]
      rcases afterMaybe_cases "the ".toList (trim cs) with he | he
      · exact absurd ⟨_, he.symm⟩ hthe
      · exact he
  rw [hname]
  split
  · rename_i hnil
    rw [if_pos hnil]
  · rename_i hne
    rw [if_neg fun hnil => hne hnil]

theorem loopEndForm?_text (front? : Option Front) (verbed : Word) :
    loopEndForm? (Wording.ending front? verbed).text =
      some (String.ofList verbed.chars, front?.bind fun f => namedBefore f.before) := by
  have hchars : (String.ofList verbed.chars).toList = verbed.chars := String.toList_ofList
  have hne : (String.ofList verbed.chars).toList ≠ [] := by
    rw [hchars]
    exact verbed.ne
  have hsolid : Solid (String.ofList verbed.chars).toList := by
    rw [hchars]
    exact verbed.solid
  have hread := loopEndForm?_append hne hsolid (frontText front?)
  rw [hchars] at hread
  refine hread.trans ?_
  cases front? with
  | none => rfl
  | some f =>
    have hline : f.before.reverse.contains '\n' = false := by
      rw [List.contains_eq_mem, decide_eq_false_iff_not, List.mem_reverse]
      exact f.one_line
    rw [frontText, List.reverse_concat]
    dsimp only
    rw [f.is_blank, hline, List.reverse_reverse, untilIngredient_eq]
    rfl

theorem exists_of_loopEndForm? {cs : List Char} {found : String × Option String}
    (h : loopEndForm? cs = some found) :
    ∃ front? verbed, cs = (Wording.ending front? verbed).text := by
  obtain ⟨hne, hsolid, ⟨hcs, -⟩ | ⟨before, blank, hcs, hblank, hline, -⟩⟩ :=
    append_of_loopEndForm? h
  · exact ⟨none, ⟨found.1.toList, hne, hsolid⟩, hcs⟩
  · exact ⟨some ⟨before, blank, hline, hblank⟩, ⟨found.1.toList, hne, hsolid⟩, hcs⟩

theorem loopStartForm?_text (name : Name) :
    loopStartForm? (Wording.start name).text = some (String.ofList name.chars) := by
  have hchars : (String.ofList name.chars).toList = name.chars := String.toList_ofList
  refine loopStartForm?_eq_some_iff.mpr ⟨?_, ?_, ?_⟩
  · rw [hchars]
    rfl
  · rw [hchars]
    exact name.ne
  · rw [hchars]
    exact name.one_line

theorem exists_of_loopStartForm? {cs : List Char} {found : String}
    (h : loopStartForm? cs = some found) : ∃ name, cs = (Wording.start name).text := by
  obtain ⟨hcs, hne, hline⟩ := loopStartForm?_eq_some_iff.mp h
  exact ⟨⟨found.toList, hne, hline⟩, hcs⟩

/-! ## every wording is read as it is meant -/

theorem decode_of_verb {verb : String} {v : Verb} (hv : Verb.ofWord? verb = some v)
    (argument : String) :
    Statement.decode verb argument =
      ((v.action? argument.toList).map (Except.map Statement.act)).getD
        (.error (.badStatement v.name verb argument)) := by
  unfold Statement.decode
  rw [hv]
  dsimp only
  cases v.action? argument.toList <;> rfl

theorem decode_of_loopVerb {verb : String} (hv : IsLoopVerb verb) (argument : String) :
    Statement.decode verb argument =
      match loopEndForm? argument.toList with
      | some (verbed, ingredient?) => .ok (.loopEnd verbed ingredient?)
      | none =>
        match loopStartForm? argument.toList with
        | some ingredient => .ok (.loopStart verb ingredient)
        | none => .error (.unknownStatement verb argument) := by
  have hnone := (Verb.ofWord?_eq_none_iff verb).mpr hv
  unfold Statement.decode
  split
  · rename_i v hsome
    cases hnone.symm.trans hsome
  · rfl

/-- the five verbs -/
theorem Wording.action?_text {verb : String} {v : Verb} (hv : Verb.ofWord? verb = some v)
    {w : Wording} (h : w.Suits verb) :
    (v.action? w.text).map (Except.map Statement.act) = some (unlessZero (w.meaning? verb)) := by
  have hloop : ¬ IsLoopVerb verb := by
    intro hloop
    rw [(Verb.ofWord?_eq_none_iff verb).mpr hloop] at hv
    cases hv
  cases w with
  | into name bowl =>
    rcases h with rfl | rfl
    · obtain rfl := Option.some.inj (hv.symm.trans (Verb.name_facts .put).2.2)
      show Option.map _ (Option.map _ (putForm? _)) = _
      rw [putForm?_text]
      dsimp only [Option.map_some]
      rw [containerNumber_ordinalDigits, meaning?]
      cases ordinalNumber? bowl.ordinal? <;> rfl
    · obtain rfl := Option.some.inj (hv.symm.trans (Verb.name_facts .combine).2.2)
      show Option.map _ (Option.map _ (putForm? _)) = _
      rw [putForm?_text]
      dsimp only [Option.map_some]
      rw [containerNumber_ordinalDigits, meaning?]
      cases ordinalNumber? bowl.ordinal? <;> rfl
  | contents the ordinal? =>
    obtain rfl : v = .liquefy := by
      rcases h with rfl | rfl
      · exact Option.some.inj (hv.symm.trans (by decide))
      · exact Option.some.inj (hv.symm.trans (by decide))
    show Option.map _ (Option.map _ (liquefyForm? _)) = _
    rw [liquefyForm?_text]
    dsimp only [Option.map_some]
    rw [containerNumber_ordinalDigits, meaning?]
    cases ordinalNumber? ordinal? <;> rfl
  | transfer bowl dish =>
    obtain rfl : verb = "Pour" := h
    obtain rfl := Option.some.inj (hv.symm.trans (Verb.name_facts .pour).2.2)
    show Option.map _ (Option.map _ (pourForm? _)) = _
    rw [pourForm?_text]
    dsimp only [Option.map_some]
    rw [containerNumber_ordinalDigits, containerNumber_ordinalDigits, meaning?]
    cases ordinalNumber? bowl.ordinal? with
    | none => rfl
    | some n => cases ordinalNumber? dish.ordinal? <;> rfl
  | time place? minutes plural =>
    obtain rfl : verb = "Stir" := h
    obtain rfl := Option.some.inj (hv.symm.trans (Verb.name_facts .stir).2.2)
    show Option.map _ (Option.map _ (stirForm? _)) = _
    rw [stirForm?_text]
    dsimp only [Option.map_some]
    rw [containerNumber_ordinalDigits, meaning?]
    cases ordinalNumber? (place?.bind Place.ordinal?) <;> rfl
  | ending front? verbed => exact absurd h hloop
  | start name => exact absurd h.1 hloop

theorem Wording.decode_text {verb argument : String} {w : Wording} (h : w.Suits verb)
    (htext : w.text = argument.toList) :
    Statement.decode verb argument = unlessZero (w.meaning? verb) := by
  cases hv : Verb.ofWord? verb with
  | some v =>
    rw [decode_of_verb hv, ← htext, action?_text hv h]
    rfl
  | none =>
    have hloop : IsLoopVerb verb := (Verb.ofWord?_eq_none_iff verb).mp hv
    cases w with
    | ending front? verbed =>
      rw [decode_of_loopVerb hloop, ← htext, loopEndForm?_text]
      rfl
    | start name =>
      -- the end of a loop is tried first, and this text is none
      have hend : loopEndForm? (start name).text = none := by
        refine Option.eq_none_iff_forall_ne_some.mpr fun found hfound => ?_
        obtain ⟨front?, verbed, hcs⟩ := exists_of_loopEndForm? hfound
        exact h.2 front? verbed hcs.symm
      rw [decode_of_loopVerb hloop, ← htext, hend, loopStartForm?_text]
      rfl
    | into _ _ => rcases h with rfl | rfl <;> simp [IsLoopVerb] at hloop
    | contents _ _ => rcases h with rfl | rfl <;> simp [IsLoopVerb] at hloop
    | transfer _ _ => simp [IsLoopVerb, show verb = "Pour" from h] at hloop
    | time _ _ _ => simp [IsLoopVerb, show verb = "Stir" from h] at hloop

/-! ## what has no wording is no statement -/

/-- the fault of a text that has no wording after a verb -/
def formFault (verb argument : String) : ReadFault :=
  match Verb.ofWord? verb with
  | some v => .badStatement v.name verb argument
  | none => .unknownStatement verb argument

theorem formFault_ne (verb argument : String) (meant : Option Statement) :
    Except.error (formFault verb argument) ≠ unlessZero meant := by
  unfold formFault
  cases Verb.ofWord? verb <;> cases meant <;> nofun

theorem Verb.eq_of_ofWord? {verb : String} {v : Verb} (h : Verb.ofWord? verb = some v) :
    verb = v.name ∨ (v = .liquefy ∧ verb = "Liquify") := by
  unfold Verb.ofWord? at h
  split at h
  · cases h
    exact .inl ‹_›
  split at h
  · cases h
    exact .inl ‹_›
  split at h
  · rename_i hliquefy
    cases h
    rcases hliquefy with rfl | rfl
    · exact .inl rfl
    · exact .inr ⟨rfl, rfl⟩
  split at h
  · cases h
    exact .inl ‹_›
  split at h
  · cases h
    exact .inl ‹_›
  · cases h

theorem exists_wording_of_action? {verb : String} {v : Verb} (hv : Verb.ofWord? verb = some v)
    {cs : List Char} {action : Except ReadFault Action} (h : v.action? cs = some action) :
    ∃ w : Wording, w.Suits verb ∧ w.text = cs := by
  have hname := Verb.eq_of_ofWord? hv
  cases v with
  | put =>
    obtain ⟨⟨_, _⟩, hform, -⟩ := Option.map_eq_some_iff.mp h
    obtain ⟨name, bowl, hcs⟩ := exists_of_putForm? hform
    exact ⟨.into name bowl, .inl (hname.resolve_right nofun), hcs.symm⟩
  | combine =>
    obtain ⟨⟨_, _⟩, hform, -⟩ := Option.map_eq_some_iff.mp h
    obtain ⟨name, bowl, hcs⟩ := exists_of_putForm? hform
    exact ⟨.into name bowl, .inr (hname.resolve_right nofun), hcs.symm⟩
  | liquefy =>
    obtain ⟨_, hform, -⟩ := Option.map_eq_some_iff.mp h
    obtain ⟨the, ordinal?, hcs⟩ := exists_of_liquefyForm? hform
    exact ⟨.contents the ordinal?, hname.imp_right And.right, hcs.symm⟩
  | pour =>
    obtain ⟨_, hform, -⟩ := Option.map_eq_some_iff.mp h
    obtain ⟨bowl, dish, hcs⟩ := exists_of_pourForm? hform
    exact ⟨.transfer bowl dish, hname.resolve_right nofun, hcs.symm⟩
  | stir =>
    obtain ⟨_, hform, -⟩ := Option.map_eq_some_iff.mp h
    obtain ⟨place?, minutes, plural, hcs⟩ := exists_of_stirForm? hform
    exact ⟨.time place? minutes plural, hname.resolve_right nofun, hcs.symm⟩

theorem exists_wording (verb argument : String) :
    (∃ w : Wording, w.Suits verb ∧ w.text = argument.toList) ∨
      Statement.decode verb argument = .error (formFault verb argument) := by
  cases hv : Verb.ofWord? verb with
  | some v =>
    cases haction : v.action? argument.toList with
    | some action => exact .inl (exists_wording_of_action? hv haction)
    | none =>
      refine .inr ?_
      rw [decode_of_verb hv, haction, formFault, hv]
      rfl
  | none =>
    have hloop : IsLoopVerb verb := (Verb.ofWord?_eq_none_iff verb).mp hv
    cases hend : loopEndForm? argument.toList with
    | some found =>
      obtain ⟨front?, verbed, hcs⟩ := exists_of_loopEndForm? hend
      exact .inl ⟨.ending front? verbed, hloop, hcs.symm⟩
    | none =>
      cases hstart : loopStartForm? argument.toList with
      | some found =>
        obtain ⟨name, hcs⟩ := exists_of_loopStartForm? hstart
        refine .inl ⟨.start name, ⟨hloop, fun front? verbed htext => ?_⟩, hcs.symm⟩
        rw [hcs, ← htext, loopEndForm?_text] at hend
        cases hend
      | none =>
        refine .inr ?_
        rw [decode_of_loopVerb hloop, hend, hstart, formFault, hv]

/-! ## no text has two wordings -/

theorem timeText_inj {m m' : Digits} {p p' : Bool} (h : timeText m p = timeText m' p') :
    m = m' ∧ p = p' := by
  obtain ⟨hm, hp⟩ := Digits.append_inj (noDigitFirst_minuteText p) (noDigitFirst_minuteText p')
    (List.append_cancel_left h)
  refine ⟨hm, ?_⟩
  cases p <;> cases p' <;> first | rfl | cases hp

theorem Place.text_inj {p q : Place} {noun : Noun} (h : p.text noun = q.text noun) : p = q := by
  have hnil : p.text noun ++ [] = q.text noun ++ [] := by rw [h]
  exact (Place.text_append_inj hnil).1

theorem bowlPart_append_inj {p q : Option Place} {m m' : Digits} {b b' : Bool}
    (h : bowlPart p ++ timeText m b = bowlPart q ++ timeText m' b') :
    p = q ∧ timeText m b = timeText m' b' := by
  have hnone : ∀ m b, bowl? (timeText m b) = none := fun _ _ => rfl
  have hsome : ∀ (p : Place) m b, bowl? (bowlPart (some p) ++ timeText m b) ≠ none := by
    intro p m b
    have hbowl := container?_text p .bowl (" ".toList ++ timeText m b)
    rw [← List.append_assoc] at hbowl
    show container? Noun.bowl.text (bowlPart (some p) ++ timeText m b) ≠ none
    rw [bowlPart, hbowl]
    exact Option.some_ne_none _
  match p, q with
  | none, none => exact ⟨rfl, h⟩
  | none, some q => exact absurd (h ▸ hnone m b) (hsome q m' b')
  | some p, none => exact absurd (h ▸ hnone m' b') (hsome p m b)
  | some p, some q =>
    rw [bowlPart, bowlPart, List.append_assoc, List.append_assoc] at h
    obtain ⟨rfl, hrest⟩ := Place.text_append_inj h
    exact ⟨rfl, List.append_cancel_left hrest⟩

theorem frontText_inj {a b : Option Front} (h : frontText a = frontText b) : a = b := by
  match a, b with
  | none, none => rfl
  | none, some b => exact absurd h.symm (List.concat_ne_nil _ _)
  | some a, none => exact absurd h (List.concat_ne_nil _ _)
  | some a, some b =>
    obtain ⟨hbefore, hblank⟩ := List.append_inj' h rfl
    exact congrArg some (Front.ext hbefore (List.cons.inj hblank).1)

theorem Wording.text_inj {verb : String} {w w' : Wording} (hw : w.Suits verb)
    (hw' : w'.Suits verb) (h : w.text = w'.text) : w = w' := by
  cases w with
  | into name bowl =>
    cases w' with
    | into name' bowl' =>
      -- a name may hold ` into ` itself, but the form finds one place to cut
      have hform := putForm?_text name bowl
      rw [h, putForm?_text] at hform
      obtain ⟨hname, -⟩ := Prod.mk.inj (Option.some.inj hform)
      obtain rfl := Name.ext hname
      have hbowl := List.append_cancel_left (List.append_cancel_left h)
      rw [Place.text_inj hbowl]
    | _ => rcases hw with rfl | rfl <;> simp [Suits, IsLoopVerb] at hw'
  | contents the ordinal? =>
    cases w' with
    | contents the' ordinal?' =>
      obtain ⟨rfl, hrest⟩ := theText_append_inj (noTFirst_contents _) (noTFirst_contents _) h
      have hnoun : NoDigitFirst Noun.bowl.text := noDigitFirst_cons (by decide) _
      obtain ⟨rfl, -⟩ := ordinalText_append_inj hnoun hnoun (List.append_cancel_left hrest)
      rfl
    | _ => rcases hw with rfl | rfl <;> simp [Suits, IsLoopVerb] at hw'
  | transfer bowl dish =>
    cases w' with
    | transfer bowl' dish' =>
      obtain ⟨rfl, hrest⟩ := Place.text_append_inj (List.append_cancel_left h)
      rw [Place.text_inj (List.append_cancel_left hrest)]
    | _ =>
      obtain rfl : verb = "Pour" := hw
      simp [Suits, IsLoopVerb] at hw'
  | time place? minutes plural =>
    cases w' with
    | time place?' minutes' plural' =>
      obtain ⟨rfl, htime⟩ := bowlPart_append_inj h
      obtain ⟨rfl, rfl⟩ := timeText_inj htime
      rfl
    | _ =>
      obtain rfl : verb = "Stir" := hw
      simp [Suits, IsLoopVerb] at hw'
  | ending front? verbed =>
    cases w' with
    | ending front?' verbed' =>
      have hform := loopEndForm?_text front? verbed
      rw [h, loopEndForm?_text] at hform
      obtain ⟨hword, -⟩ := Prod.mk.inj (Option.some.inj hform)
      obtain rfl := Word.ext (String.ofList_injective hword)
      rw [frontText_inj (List.append_cancel_right h)]
    | start name => exact absurd h (hw'.2 front? verbed)
    | into _ _ => rcases hw' with rfl | rfl <;> simp [Suits, IsLoopVerb] at hw
    | contents _ _ => rcases hw' with rfl | rfl <;> simp [Suits, IsLoopVerb] at hw
    | _ =>
      rw [hw'] at hw
      simp [Suits, IsLoopVerb] at hw
  | start name =>
    cases w' with
    | start name' => rw [Name.ext (List.append_cancel_left h)]
    | ending front? verbed => exact absurd h.symm (hw.2 front? verbed)
    | into _ _ => rcases hw' with rfl | rfl <;> simp [Suits, IsLoopVerb] at hw
    | contents _ _ => rcases hw' with rfl | rfl <;> simp [Suits, IsLoopVerb] at hw
    | _ =>
      rw [hw'] at hw
      simp [Suits, IsLoopVerb] at hw

/-! ## exactly the wordings are read -/

theorem decode_eq_unlessZero_iff (verb argument : String) (meant : Option Statement) :
    Statement.decode verb argument = unlessZero meant ↔
      ∃ w : Wording, w.Suits verb ∧ w.text = argument.toList ∧ w.meaning? verb = meant := by
  constructor
  · intro h
    rcases exists_wording verb argument with ⟨w, hw, htext⟩ | hfault
    · refine ⟨w, hw, htext, ?_⟩
      rw [Wording.decode_text hw htext] at h
      exact unlessZero_inj h
    · rw [hfault] at h
      exact absurd h (formFault_ne verb argument meant)
  · rintro ⟨w, hw, htext, rfl⟩
    exact Wording.decode_text hw htext

/-- a sentence is read iff it has a wording that suits its verb and calls no container the 0th; the
statement read is the one meant, and the wording is the only one there is.  With a 0th container it
fails for that reason. -/
theorem decode_eq_ok_iff_wording (verb argument : String) :
    (∀ st, Statement.decode verb argument = .ok st ↔
      ∃ w : Wording, w.Suits verb ∧ w.text = argument.toList ∧ w.meaning? verb = some st) ∧
    (∀ w w' : Wording, w.Suits verb ∧ w.text = argument.toList →
      w'.Suits verb ∧ w'.text = argument.toList → w = w') ∧
    (Statement.decode verb argument = .error .ordinalZero ↔
      ∃ w : Wording, w.Suits verb ∧ w.text = argument.toList ∧ w.meaning? verb = none) := by
  refine ⟨fun st => ?_, ?_, ?_⟩
  · exact decode_eq_unlessZero_iff verb argument (some st)
  · rintro w w' ⟨hw, htext⟩ ⟨hw', htext'⟩
    exact Wording.text_inj hw hw' (htext.trans htext'.symm)
  · exact decode_eq_unlessZero_iff verb argument none

def zeroDigits : Digits := ⟨['0'], List.cons_ne_nil _ _, List.forall_mem_singleton.mpr rfl⟩

/-- `x into the 0th mixing bowl` -/
def zerothBowl : Wording := .into ⟨['x'], by decide, by decide⟩ ⟨true, some ⟨zeroDigits, .th⟩⟩

/-- the 0th bowl is a wording, but there is no such bowl -/
theorem decode_zeroth_bowl :
    (∃ w : Wording, w.Suits "Put" ∧ w.text = "x into the 0th mixing bowl".toList) ∧
      ¬ ∃ st, Statement.decode "Put" "x into the 0th mixing bowl" = .ok st := by
  have hsuits : zerothBowl.Suits "Put" := Or.inl rfl
  have htext : zerothBowl.text = "x into the 0th mixing bowl".toList := rfl
  have hfault : Statement.decode "Put" "x into the 0th mixing bowl" = .error .ordinalZero :=
    Wording.decode_text hsuits htext
  refine ⟨⟨zerothBowl, hsuits, htext⟩, ?_⟩
  rintro ⟨st, hst⟩
  rw [hfault] at hst
  cases hst

end Cookery

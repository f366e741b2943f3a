import Cookery.Proofs.Text.Numerals
import Cookery.Statement.Sentence

/-!
# Containers as they are written

A container is written with or without `the`, with or without an ordinal, and with its noun.  Each
part is read back, whatever follows it, and no text can be written in two ways.

* `Digits`, `Ordinal`, `Place`     the parts of a container before its noun;
* `theText`, `ordinalText`, `Place.text`   how they are written;
* `ordinalMaybe_ordinalText`, `exists_of_ordinalMaybe`, `container?_text`, `exists_of_container?`
                                   what is written is read, and what is read was written;
* `theText_append_inj`, `ordinalText_append_inj`, `Place.text_append_inj`   in one way only.
-/

namespace Cookery

/-! ## digits -/

/-- some digits, at least one -/
@[ext] structure Digits where
  chars : List Char
  ne : chars ≠ []
  digits : ∀ d ∈ chars, isDigit d = true

theorem Digits.digitRun?_append (ds : Digits) {r : List Char} (hr : NoDigitFirst r) :
    digitRun? (ds.chars ++ r) = some (ds.chars, r) :=
  Cookery.digitRun?_append ds.ne ds.digits hr

theorem exists_of_digitRun? {cs ds r : List Char} (h : digitRun? cs = some (ds, r)) :
    ∃ d : Digits, d.chars = ds ∧ cs = d.chars ++ r :=
  ⟨⟨ds, (digitRun?_eq_some h).2.2, isDigit_of_digitRun? h⟩, rfl, append_of_digitRun? h⟩

theorem Digits.append_inj {a b : Digits} {r s : List Char} (hr : NoDigitFirst r)
    (hs : NoDigitFirst s) (h : a.chars ++ r = b.chars ++ s) : a = b ∧ r = s := by
  have hrun := a.digitRun?_append hr
  rw [h, b.digitRun?_append hs] at hrun
  obtain ⟨hchars, hrest⟩ := Prod.mk.inj (Option.some.inj hrun)
  exact ⟨Digits.ext hchars.symm, hrest.symm⟩

/-! ## ordinals -/

inductive OrdinalEnding where
  | st
  | nd
  | rd
  | th

/-- the two letters, and the space after them -/
def OrdinalEnding.text : OrdinalEnding → List Char
  | .st => "st ".toList
  | .nd => "nd ".toList
  | .rd => "rd ".toList
  | .th => "th ".toList

structure Ordinal where
  digits : Digits
  ending : OrdinalEnding

def Ordinal.text (o : Ordinal) : List Char := o.digits.chars ++ o.ending.text

/-- an ordinal that may be missing -/
def ordinalText : Option Ordinal → List Char
  | none => []
  | some o => o.text

/-- the digits of an ordinal -/
def ordinalDigits (o? : Option Ordinal) : Option (List Char) := o?.map (·.digits.chars)

namespace OrdinalEnding

theorem noDigitFirst_text_append (e : OrdinalEnding) (r : List Char) :
    NoDigitFirst (e.text ++ r) := by
  cases e <;> exact noDigitFirst_cons (by decide) _

theorem findSome?_text_append (e : OrdinalEnding) (r : List Char) :
    ordinalEndings.findSome? (after? · (e.text ++ r)) = some r := by
  cases e <;> rfl

theorem exists_of_mem {w : List Char} (h : w ∈ ordinalEndings) :
    ∃ e : OrdinalEnding, e.text = w := by
  simp only [ordinalEndings, List.mem_cons, List.not_mem_nil, or_false] at h
  rcases h with rfl | rfl | rfl | rfl
  · exact ⟨.st, rfl⟩
  · exact ⟨.nd, rfl⟩
  · exact ⟨.rd, rfl⟩
  · exact ⟨.th, rfl⟩

theorem text_append_inj {a b : OrdinalEnding} {r s : List Char}
    (h : a.text ++ r = b.text ++ s) : a = b ∧ r = s := by
  have hrest := a.findSome?_text_append r
  rw [h, b.findSome?_text_append] at hrest
  refine ⟨?_, (Option.some.inj hrest).symm⟩
  cases a <;> cases b <;> first | rfl | cases h

end OrdinalEnding

theorem ordinal?_text_append (o : Ordinal) (r : List Char) :
    ordinal? (o.text ++ r) = some (o.digits.chars, r) := by
  unfold ordinal? Ordinal.text
  rw [List.append_assoc, o.digits.digitRun?_append (o.ending.noDigitFirst_text_append r),
    Option.bind_some]
  dsimp only
  rw [o.ending.findSome?_text_append r]
  rfl

theorem exists_of_ordinal? {cs ds r : List Char} (h : ordinal? cs = some (ds, r)) :
    ∃ o : Ordinal, o.digits.chars = ds ∧ cs = o.text ++ r := by
  obtain ⟨⟨ds', r'⟩, hrun, h⟩ := Option.bind_eq_some_iff.mp h
  obtain ⟨r'', hfound, h⟩ := Option.map_eq_some_iff.mp h
  obtain ⟨rfl, rfl⟩ := Prod.mk.inj h
  obtain ⟨d, rfl, rfl⟩ := exists_of_digitRun? hrun
  obtain ⟨w, hw, hafter⟩ := List.exists_of_findSome?_eq_some hfound
  obtain ⟨e, rfl⟩ := OrdinalEnding.exists_of_mem hw
  refine ⟨⟨d, e⟩, rfl, ?_⟩
  rw [after?_eq_some_iff.mp hafter, Ordinal.text, List.append_assoc]

theorem ordinalMaybe_ordinalText (o? : Option Ordinal) {r : List Char} (hr : NoDigitFirst r) :
    ordinalMaybe (ordinalText o? ++ r) = (ordinalDigits o?, r) := by
  unfold ordinalMaybe
  cases o? with
  | some o =>
    rw [ordinalText, ordinal?_text_append]
    rfl
  | none =>
    -- an ordinal that is read off `r` would start with a digit
    have hnone : ordinal? r = none := by
      refine Option.eq_none_iff_forall_ne_some.mpr fun p hp => ?_
      obtain ⟨o, -, rfl⟩ := exists_of_ordinal? hp
      obtain ⟨d, ds, hd⟩ := List.exists_cons_of_ne_nil o.digits.ne
      have hdigit := o.digits.digits d (hd ▸ List.mem_cons_self)
      have hfirst : isDigit d = false := hr d (by rw [Ordinal.text, hd]; rfl)
      rw [hdigit] at hfirst
      cases hfirst
    rw [ordinalText, List.nil_append, hnone]
    rfl

/-- an ordinal and what follows it make up the text -/
theorem exists_of_ordinalMaybe {cs r : List Char} {ds? : Option (List Char)}
    (h : ordinalMaybe cs = (ds?, r)) :
    ∃ o? : Option Ordinal, ordinalDigits o? = ds? ∧ cs = ordinalText o? ++ r := by
  unfold ordinalMaybe at h
  cases ho : ordinal? cs with
  | none =>
    rw [ho] at h
    obtain ⟨rfl, rfl⟩ := Prod.mk.inj h
    exact ⟨none, rfl, rfl⟩
  | some p =>
    rw [ho] at h
    obtain ⟨rfl, rfl⟩ := Prod.mk.inj h
    obtain ⟨o, hdigits, hcs⟩ := exists_of_ordinal? ho
    exact ⟨some o, congrArg some hdigits, hcs⟩

theorem ordinalText_append_inj {a b : Option Ordinal} {r s : List Char} (hr : NoDigitFirst r)
    (hs : NoDigitFirst s) (h : ordinalText a ++ r = ordinalText b ++ s) : a = b ∧ r = s := by
  have hread := ordinalMaybe_ordinalText a hr
  rw [h, ordinalMaybe_ordinalText b hs] at hread
  obtain ⟨hdigits, rfl⟩ := Prod.mk.inj hread
  refine ⟨?_, rfl⟩
  match a, b with
  | none, none => rfl
  | none, some _ => cases hdigits
  | some _, none => cases hdigits
  | some a, some b =>
    have htext : a.digits.chars ++ (a.ending.text ++ s) =
        b.digits.chars ++ (b.ending.text ++ s) := by
      rw [← List.append_assoc, ← List.append_assoc]
      exact h
    obtain ⟨hd, hrest⟩ := Digits.append_inj (a.ending.noDigitFirst_text_append s)
      (b.ending.noDigitFirst_text_append s) htext
    obtain ⟨he, -⟩ := OrdinalEnding.text_append_inj hrest
    obtain ⟨_, _⟩ := a
    obtain ⟨_, _⟩ := b
    cases hd
    cases he
    rfl

/-! ## articles -/

/-- `the`, if it is written -/
def theText (the : Bool) : List Char := if the then "the ".toList else []

/-- a text does not start as the article does -/
def NoTFirst (r : List Char) : Prop := ∀ c ∈ r.head?, c ≠ 't'

theorem afterMaybe_append (w r : List Char) : afterMaybe w (w ++ r) = r := by
  rw [afterMaybe, after?_append, Option.getD_some]

theorem afterMaybe_cases (w cs : List Char) :
    cs = w ++ afterMaybe w cs ∨ afterMaybe w cs = cs := by
  unfold afterMaybe
  cases h : after? w cs with
  | none => exact .inr rfl
  | some r => exact .inl (after?_eq_some_iff.mp h)

theorem afterMaybe_theText (the : Bool) {r : List Char} (hr : NoTFirst r) :
    afterMaybe "the ".toList (theText the ++ r) = r := by
  cases the with
  | true => exact afterMaybe_append "the ".toList r
  | false =>
    rcases afterMaybe_cases "the ".toList r with hthe | hthe
    · exact absurd rfl (hr 't' (by rw [hthe]; rfl))
    · exact hthe

theorem exists_theText (cs : List Char) :
    ∃ the, cs = theText the ++ afterMaybe "the ".toList cs := by
  rcases afterMaybe_cases "the ".toList cs with hthe | hthe
  · exact ⟨true, hthe⟩
  · exact ⟨false, hthe.symm⟩

theorem theText_append_inj {a b : Bool} {r s : List Char} (hr : NoTFirst r) (hs : NoTFirst s)
    (h : theText a ++ r = theText b ++ s) : a = b ∧ r = s := by
  have hread := afterMaybe_theText a hr
  rw [h, afterMaybe_theText b hs] at hread
  obtain rfl := hread
  have htext := List.append_cancel_right h
  cases a <;> cases b <;> first | exact ⟨rfl, rfl⟩ | cases htext

/-! ## containers -/

inductive Noun where
  | bowl
  | dish

def Noun.text : Noun → List Char
  | .bowl => "mixing bowl".toList
  | .dish => "baking dish".toList

/-- what is written before the noun of a container -/
structure Place where
  the : Bool
  ordinal? : Option Ordinal

def Place.text (p : Place) (noun : Noun) : List Char :=
  theText p.the ++ (ordinalText p.ordinal? ++ noun.text)

theorem Noun.noDigitFirst_text_append (noun : Noun) (r : List Char) :
    NoDigitFirst (noun.text ++ r) := by
  cases noun <;> exact noDigitFirst_cons (by decide) _

/-- neither an ordinal nor a noun starts as the article does -/
theorem Noun.noTFirst_append (noun : Noun) (o? : Option Ordinal) (r : List Char) :
    NoTFirst (ordinalText o? ++ (noun.text ++ r)) := by
  cases o? with
  | none => cases noun <;> exact forall_mem_head_cons (· ≠ 't') (by decide) _
  | some o =>
    obtain ⟨d, ds, hd⟩ := List.exists_cons_of_ne_nil o.digits.ne
    have hdigit := o.digits.digits d (hd ▸ List.mem_cons_self)
    have hne : d ≠ 't' := by
      rintro rfl
      exact absurd hdigit (by decide)
    rw [ordinalText, Ordinal.text, hd]
    exact forall_mem_head_cons (· ≠ 't') hne _

theorem Place.text_append (p : Place) (noun : Noun) (r : List Char) :
    p.text noun ++ r = theText p.the ++ (ordinalText p.ordinal? ++ (noun.text ++ r)) := by
  unfold Place.text
  rw [List.append_assoc, List.append_assoc]

theorem container?_text (p : Place) (noun : Noun) (r : List Char) :
    container? noun.text (p.text noun ++ r) = some (ordinalDigits p.ordinal?, r) := by
  unfold container?
  rw [p.text_append, afterMaybe_theText p.the (noun.noTFirst_append p.ordinal? r),
    ordinalMaybe_ordinalText p.ordinal? (noun.noDigitFirst_text_append r)]
  dsimp only
  rw [after?_append]
  rfl

theorem exists_of_container? {noun : Noun} {cs r : List Char} {ds? : Option (List Char)}
    (h : container? noun.text cs = some (ds?, r)) :
    ∃ p : Place, ordinalDigits p.ordinal? = ds? ∧ cs = p.text noun ++ r := by
  unfold container? at h
  obtain ⟨the, hthe⟩ := exists_theText cs
  cases ho : ordinalMaybe (afterMaybe "the ".toList cs) with
  | mk ds r' =>
    rw [ho] at h
    obtain ⟨r'', hnoun, h⟩ := Option.map_eq_some_iff.mp h
    obtain ⟨rfl, rfl⟩ := Prod.mk.inj h
    obtain ⟨o?, hdigits, hrest⟩ := exists_of_ordinalMaybe ho
    refine ⟨⟨the, o?⟩, hdigits, ?_⟩
    rw [hthe, hrest, after?_eq_some_iff.mp hnoun, Place.text_append]

theorem Place.text_append_inj {p q : Place} {noun : Noun} {r s : List Char}
    (h : p.text noun ++ r = q.text noun ++ s) : p = q ∧ r = s := by
  rw [Place.text_append, Place.text_append] at h
  obtain ⟨hthe, hordinals⟩ := theText_append_inj (noun.noTFirst_append p.ordinal? r)
    (noun.noTFirst_append q.ordinal? s) h
  obtain ⟨hordinal, hnouns⟩ := ordinalText_append_inj (noun.noDigitFirst_text_append r)
    (noun.noDigitFirst_text_append s) hordinals
  have hrest : r = s := List.append_cancel_left hnouns
  obtain ⟨_, _⟩ := p
  obtain ⟨_, _⟩ := q
  cases hthe
  cases hordinal
  exact ⟨rfl, hrest⟩

/-! ## numbers of containers -/

/-- containers are counted from the 1st, which is number 0; without an ordinal it is the 1st, and
there is no 0th -/
def ordinalNumber? : Option Ordinal → Option Nat
  | none => some 0
  | some o => if countOf o.digits.chars = 0 then none else some (countOf o.digits.chars - 1)

/-- what was meant, if there is such a container -/
def unlessZero {α : Type} : Option α → Except ReadFault α
  | none => .error .ordinalZero
  | some a => .ok a

theorem unlessZero_inj {α : Type} {a b : Option α} (h : unlessZero a = unlessZero b) : a = b := by
  match a, b with
  | none, none => rfl
  | none, some _ => cases h
  | some _, none => cases h
  | some a, some b => exact congrArg some (Except.ok.inj h)

theorem containerNumber_ordinalDigits (o? : Option Ordinal) :
    containerNumber (ordinalDigits o?) = unlessZero (ordinalNumber? o?) := by
  cases o? with
  | none => rfl
  | some o =>
    show (if countOf o.digits.chars = 0 then _ else _) = unlessZero (if _ then _ else _)
    split <;> rfl

end Cookery

import Cookery.Proofs.Lists
import Cookery.Text.Blank

/-!
# Texts without blanks at their ends

* `NoBlankFirst`, `NoBlankLast`   the two ends of a text;
* `trim_eq_self`                  a text with two such ends is its own trimming;
* `noBlankFirst_trim`, `noBlankLast_trim`, `mem_of_mem_trim`   what trimming leaves;
* `trim_append_of_blank`          blanks around a text are trimmed away.
-/

namespace Cookery

/-- a text does not start with a blank -/
def NoBlankFirst (cs : List Char) : Prop := ∀ c ∈ cs.head?, isBlank c = false

/-- a text does not end in a blank -/
def NoBlankLast (cs : List Char) : Prop := ∀ c ∈ cs.getLast?, isBlank c = false

/-- a text without blanks -/
def Solid (cs : List Char) : Prop := ∀ c ∈ cs, isBlank c = false

instance (cs : List Char) : Decidable (NoBlankFirst cs) :=
  Option.decidableForallMem (p := fun c => isBlank c = false) cs.head?

instance (cs : List Char) : Decidable (NoBlankLast cs) :=
  Option.decidableForallMem (p := fun c => isBlank c = false) cs.getLast?

instance (cs : List Char) : Decidable (Solid cs) :=
  List.decidableBAll (fun c => isBlank c = false) cs

/-! ## ends of texts put together -/

theorem noBlankFirst_append {a : List Char} (h : NoBlankFirst a) (hne : a ≠ []) (b : List Char) :
    NoBlankFirst (a ++ b) := by
  cases a with
  | nil => exact absurd rfl hne
  | cons x a => exact h

theorem noBlankLast_append {b : List Char} (h : NoBlankLast b) (hne : b ≠ []) (a : List Char) :
    NoBlankLast (a ++ b) := by
  intro c hc
  cases hb : b.getLast? with
  | none => exact absurd (List.getLast?_eq_none_iff.mp hb) hne
  | some x =>
    rw [List.getLast?_append, hb] at hc
    exact h c (hb.trans hc)

theorem NoBlankFirst.of_start {a b : List Char} (hb : NoBlankFirst b) (h : a <+: b) :
    NoBlankFirst a := by
  intro c hc
  obtain ⟨t, rfl⟩ := h
  refine hb c ?_
  rw [List.head?_append, hc]
  rfl

theorem NoBlankLast.of_suffix {a b : List Char} (hb : NoBlankLast b) (h : a <:+ b) :
    NoBlankLast a := by
  intro c hc
  obtain ⟨t, rfl⟩ := h
  refine hb c ?_
  rw [List.getLast?_append, hc]
  rfl

theorem Solid.noBlankFirst {cs : List Char} (h : Solid cs) : NoBlankFirst cs :=
  fun c hc => h c (List.mem_of_mem_head? hc)

theorem Solid.noBlankLast {cs : List Char} (h : Solid cs) : NoBlankLast cs :=
  fun c hc => h c (List.mem_of_mem_getLast? hc)

/-- a solid text and one that starts with a blank are cut apart where they meet -/
theorem Solid.takeWhile_append {word rest : List Char} (h : Solid word)
    (hrest : ∀ c ∈ rest.head?, isBlank c = true) :
    (word ++ rest).takeWhile (!isBlank ·) = word := by
  refine takeWhile_run (fun c hc => ?_) (fun c hc => ?_)
  · rw [h c hc]
    rfl
  · rw [hrest c hc]
    rfl

theorem Solid.dropWhile_append {word rest : List Char} (h : Solid word)
    (hrest : ∀ c ∈ rest.head?, isBlank c = true) :
    (word ++ rest).dropWhile (!isBlank ·) = rest := by
  refine dropWhile_run (fun c hc => ?_) (fun c hc => ?_)
  · rw [h c hc]
    rfl
  · rw [hrest c hc]
    rfl

/-! ## trimming -/

theorem trimStart_eq_self {cs : List Char} (h : NoBlankFirst cs) : trimStart cs = cs :=
  dropWhile_run (a := []) (List.forall_mem_nil _) h

theorem trimEnd_eq_self {cs : List Char} (h : NoBlankLast cs) : trimEnd cs = cs := by
  have hstart : trimStart cs.reverse = cs.reverse := by
    refine trimStart_eq_self fun c hc => h c ?_
    rw [List.head?_reverse] at hc
    exact hc
  show (trimStart cs.reverse).reverse = cs
  rw [hstart, List.reverse_reverse]

theorem trim_eq_self {cs : List Char} (hfirst : NoBlankFirst cs) (hlast : NoBlankLast cs) :
    trim cs = cs := by
  rw [trim, trimStart_eq_self hfirst, trimEnd_eq_self hlast]

theorem isBlankText_eq_false {cs : List Char} (hne : cs ≠ []) (hfirst : NoBlankFirst cs)
    (hlast : NoBlankLast cs) : isBlankText cs = false := by
  rw [Bool.eq_false_iff]
  intro hblank
  have hnil := (trim_eq_nil_iff _).mpr hblank
  rw [trim_eq_self hfirst hlast] at hnil
  exact hne hnil

theorem trim_cons_of_blank {c : Char} (h : isBlank c = true) (cs : List Char) :
    trim (c :: cs) = trim cs := by
  rw [trim, trimStart_cons_of_blank h, trim]

theorem trimEnd_isStart (cs : List Char) : trimEnd cs <+: cs := by
  have hsuffix : trimStart cs.reverse <:+ cs.reverse := List.dropWhile_suffix _
  have hstart := List.reverse_prefix.mpr hsuffix
  rw [List.reverse_reverse] at hstart
  exact hstart

theorem noBlankFirst_trim (cs : List Char) : NoBlankFirst (trim cs) := by
  have hstart : NoBlankFirst (trimStart cs) := fun c hc => not_of_mem_head_dropWhile hc
  exact hstart.of_start (trimEnd_isStart _)

theorem noBlankLast_trim (cs : List Char) : NoBlankLast (trim cs) := by
  intro c hc
  have hlast : c ∈ (trimStart (trimStart cs).reverse).head? := by
    rw [← List.getLast?_reverse]
    exact hc
  exact not_of_mem_head_dropWhile hlast

theorem mem_of_mem_trim {c : Char} {cs : List Char} (h : c ∈ trim cs) : c ∈ cs := by
  have hstart : c ∈ trimStart cs := (trimEnd_isStart _).subset h
  exact (List.dropWhile_suffix _).subset hstart

theorem trim_append_of_blank {before after : List Char} (hbefore : isBlankText before = true)
    (hafter : isBlankText after = true) (cs : List Char) :
    trim (before ++ (cs ++ after)) = trim cs := by
  have hstart : trimStart (before ++ (cs ++ after)) = trimStart (cs ++ after) :=
    List.dropWhile_append_of_pos (List.all_eq_true.mp hbefore)
  have hend : ∀ ds, trimEnd (ds ++ after) = trimEnd ds := by
    intro ds
    unfold trimEnd
    rw [List.reverse_append, List.dropWhile_append_of_pos]
    intro c hc
    exact List.all_eq_true.mp hafter c (List.mem_reverse.mp hc)
  rw [trim, hstart, trim]
  cases hblank : isBlankText cs with
  | true =>
    have hall : isBlankText (cs ++ after) = true := by
      rw [isBlankText, List.all_append, ← isBlankText, ← isBlankText, hblank, hafter]
      rfl
    rw [(trimStart_eq_nil_iff _).mpr hall, (trimStart_eq_nil_iff _).mpr hblank]
  | false =>
    have hcut : trimStart (cs ++ after) = trimStart cs ++ after := by
      unfold trimStart
      rw [List.dropWhile_append, if_neg]
      intro hnil
      rw [(trimStart_eq_nil_iff cs).mp (List.isEmpty_iff.mp hnil)] at hblank
      cases hblank
    rw [hcut, hend]

end Cookery

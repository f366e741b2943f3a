/-!
# Cutting fixed words off a text

* `after? w cs`     what follows the word `w` at the start of `cs`;
* `afterMaybe w cs` the same, and `cs` itself when `w` is not there;
* `cutAround? w f cs`  the first place where `w` is followed by a text that `f` can read.
-/

namespace Cookery

/-- what is left of a text after a word at its start -/
def after? : (word text : List Char) → Option (List Char)
  | [], cs => some cs
  | _ :: _, [] => none
  | w :: ws, c :: cs => if w = c then after? ws cs else none

/-- what is left of a text after a word that may be missing -/
def afterMaybe (word text : List Char) : List Char := (after? word text).getD text

theorem after?_eq_some_iff {w cs r : List Char} : after? w cs = some r ↔ cs = w ++ r := by
  induction w generalizing cs with
  | nil => simp [after?]
  | cons a w ih =>
    cases cs with
    | nil => simp [after?]
    | cons c cs =>
      by_cases h : a = c
      · simp [after?, h, ih]
      · simp [after?, h, Ne.symm h]

@[simp] theorem after?_append (w r : List Char) : after? w (w ++ r) = some r :=
  after?_eq_some_iff.2 rfl

/-- split a text as `n ++ w ++ t` at the first place where `f` reads `t`, and give `n` with what `f`
read; the front `n` has no line feed -/
def cutAround? {α : Type} (word : List Char) (f : List Char → Option α) :
    List Char → Option (List Char × α)
  | [] => none
  | c :: cs =>
    match (after? word (c :: cs)).bind f with
    | some a => some ([], a)
    | none => if c = '\n' then none else (cutAround? word f cs).map fun p => (c :: p.1, p.2)

/-- what `cutAround?` finds is a splitting of the text -/
theorem append_of_cutAround? {α : Type} {w : List Char} {f : List Char → Option α}
    {cs n : List Char} {a : α} (h : cutAround? w f cs = some (n, a)) :
    '\n' ∉ n ∧ ∃ t, cs = n ++ w ++ t ∧ f t = some a := by
  induction cs generalizing n with
  | nil => simp [cutAround?] at h
  | cons c cs ih =>
    rw [cutAround?] at h
    split at h
    · rename_i b hb
      obtain ⟨t, ht, hf⟩ := Option.bind_eq_some_iff.1 hb
      obtain ⟨rfl, rfl⟩ := Prod.mk.inj (Option.some.inj h)
      exact ⟨by simp, t, by simpa using after?_eq_some_iff.1 ht, hf⟩
    · split at h
      · cases h
      · rename_i hc
        obtain ⟨p, hp, he⟩ := Option.map_eq_some_iff.1 h
        obtain ⟨rfl, rfl⟩ := Prod.mk.inj he
        obtain ⟨hn, t, ht, hf⟩ := ih hp
        refine ⟨by simp [hn, Ne.symm hc], t, ?_, hf⟩
        rw [ht, List.cons_append, List.cons_append]

end Cookery

import Cookery.Kitchen.Serving
import Cookery.Proofs.Lists
import Cookery.Proofs.Tables
import Mathlib.Data.List.Forall2

/-!
# What is served, and what is left

Serving goes through the dishes by their numbers and through each dish from the top.  It comes to
the end if all it meets are characters; else it stops at the first ingredient that is none, and
what was not reached is as it was.

* `IsScalarValue`, `Ingredient.IsServedAs`, `Ingredient.Unfit`   the character of an ingredient, or
                                 why there is none;
* `Kitchen.ServedDishes`         the dishes that a serving goes through, in their order;
* `Stop`                         the first ingredient in these dishes that is no character;
* `Container.serve_of_served`, `Container.serve_of_unfit`   one dish;
* `Kitchen.serveDishes_cases`    dishes one after the other: all are served, or there is a stop;
* `Kitchen.serve_cases`          the same for a kitchen and its served dishes;
* `serve_served_dishes`          what it gives, and what is then in the kitchen.
-/

namespace Cookery

/-! ## characters -/

theorem codePoint_lt (c : Char) : c.toNat < 0x110000 := by
  have hvalid : c.toNat < 0xD800 ∨ 0xDFFF < c.toNat ∧ c.toNat < 0x110000 := c.valid
  omega

def Quantity.ofChar (c : Char) : Quantity where
  val := c.toNat
  least := by omega
  most := by
    have hlt := codePoint_lt c
    omega

theorem Quantity.char?_ofChar (c : Char) : (Quantity.ofChar c).char? = some c := by
  have hvalid : c.toNat.isValidChar := c.valid
  unfold Quantity.char?
  rw [if_pos ⟨Int.natCast_nonneg _, hvalid⟩]
  show some (Char.ofNat c.toNat) = some c
  rw [Char.ofNat_toNat]

theorem Ingredient.toChar_eq_ok_iff {i : Ingredient} {x : Char} :
    i.toChar = .ok x ↔ i.kind = .liquid ∧ ∃ q, i.value = some q ∧ q.char? = some x := by
  unfold Ingredient.toChar Ingredient.render
  constructor
  · intro h
    split at h
    · cases h
    · rename_i hkind
      split at h
      · cases h
      · rename_i q hq
        split at h
        · rename_i y hy
          cases h
          exact ⟨Decidable.not_not.mp hkind, q, hq, hy⟩
        · cases h
  · rintro ⟨hkind, q, hq, hx⟩
    rw [if_neg (not_not_intro hkind), hq]
    dsimp only
    rw [hx]
    rfl

/-- a code point that is a character: surrogates are none -/
def IsScalarValue (n : Int) : Prop := 0 ≤ n ∧ n ≤ 0x10FFFF ∧ ¬ (0xD800 ≤ n ∧ n ≤ 0xDFFF)

instance (n : Int) : Decidable (IsScalarValue n) :=
  inferInstanceAs (Decidable (_ ∧ _ ∧ ¬ _))

theorem isScalarValue_toNat (c : Char) : IsScalarValue c.toNat := by
  have hvalid : c.toNat < 0xD800 ∨ 0xDFFF < c.toNat ∧ c.toNat < 0x110000 := c.valid
  unfold IsScalarValue
  omega

namespace Quantity

theorem char?_eq_some_iff {q : Quantity} {c : Char} : q.char? = some c ↔ q.val = c.toNat := by
  constructor
  · intro h
    unfold char? at h
    split at h
    · rename_i hq
      obtain rfl := Option.some.inj h
      have hcode : (Char.ofNat q.val.toNat).toNat = q.val.toNat := by
        unfold Char.ofNat
        rw [dif_pos hq.2]
        rfl
      rw [hcode]
      omega
    · cases h
  · intro h
    obtain rfl : q = ofChar c := by
      cases q
      cases h
      rfl
    exact char?_ofChar c

theorem char?_eq_none_iff {q : Quantity} : q.char? = none ↔ ¬ IsScalarValue q.val := by
  constructor
  · intro h hscalar
    unfold char? at h
    rw [if_pos] at h
    · cases h
    · have hvalid : q.val.toNat < 0xD800 ∨ 0xDFFF < q.val.toNat ∧ q.val.toNat < 0x110000 := by
        unfold IsScalarValue at hscalar
        omega
      exact ⟨hscalar.1, hvalid⟩
  · intro h
    cases hc : q.char? with
    | none => rfl
    | some c =>
      rw [char?_eq_some_iff] at hc
      exact absurd (hc ▸ isScalarValue_toNat c) h

end Quantity

namespace Ingredient

/-- the character of an ingredient: it is liquid, and its value is the code point -/
def IsServedAs (i : Ingredient) (c : Char) : Prop :=
  i.kind = .liquid ∧ ∃ q, i.value = some q ∧ q.val = c.toNat

/-- liquid, with the code point of a character for its value -/
def IsCharacter (i : Ingredient) : Prop :=
  i.kind = .liquid ∧ ∃ q, i.value = some q ∧ IsScalarValue q.val

/-- why an ingredient has no character; its kind is looked at before its value -/
inductive Unfit (i : Ingredient) : RenderFault → Prop where
  | notLiquid (kind : i.kind ≠ .liquid) : Unfit i (.notLiquid i.kind)
  | noValue (liquid : i.kind = .liquid) (value : i.value = none) : Unfit i .noValue
  | notCharacter {q : Quantity} (liquid : i.kind = .liquid) (value : i.value = some q)
    (scalar : ¬ IsScalarValue q.val) : Unfit i (.notCharacter q.val)

variable {i : Ingredient}

theorem toChar_of_servedAs {c : Char} (h : i.IsServedAs c) : i.toChar = .ok c := by
  obtain ⟨hkind, q, hq, hval⟩ := h
  exact toChar_eq_ok_iff.mpr ⟨hkind, q, hq, Quantity.char?_eq_some_iff.mpr hval⟩

theorem render_of_unfit {fault : RenderFault} (h : i.Unfit fault) : i.render = .error fault := by
  unfold render
  cases h with
  | notLiquid kind => rw [if_pos kind]
  | noValue liquid value => rw [if_neg (not_not_intro liquid), value]
  | notCharacter liquid value scalar =>
    rw [if_neg (not_not_intro liquid), value]
    dsimp only
    rw [Quantity.char?_eq_none_iff.mpr scalar]

theorem IsServedAs.isCharacter {c : Char} (h : i.IsServedAs c) : i.IsCharacter := by
  obtain ⟨hkind, q, hq, hval⟩ := h
  exact ⟨hkind, q, hq, hval ▸ isScalarValue_toNat c⟩

theorem Unfit.not_isCharacter {fault : RenderFault} (h : i.Unfit fault) : ¬ i.IsCharacter := by
  rintro ⟨hkind, q, hq, hscalar⟩
  cases h with
  | notLiquid kind => exact kind hkind
  | noValue liquid value => cases value.symm.trans hq
  | notCharacter liquid value scalar =>
    cases value.symm.trans hq
    exact scalar hscalar

/-- every ingredient has a character, or there is a reason why not -/
theorem servedAs_or_unfit (i : Ingredient) :
    (∃ c, i.IsServedAs c) ∨ ∃ fault, i.Unfit fault := by
  by_cases hkind : i.kind = .liquid
  · cases hq : i.value with
    | none => exact .inr ⟨_, .noValue hkind hq⟩
    | some q =>
      cases hc : q.char? with
      | none => exact .inr ⟨_, .notCharacter hkind hq (Quantity.char?_eq_none_iff.mp hc)⟩
      | some c => exact .inl ⟨c, hkind, q, hq, Quantity.char?_eq_some_iff.mp hc⟩
  · exact .inr ⟨_, .notLiquid hkind⟩

end Ingredient

/-! ## one dish -/

/-- all are characters, or one of them is the first that is none -/
theorem served_or_unfit (is : List Ingredient) :
    (∃ chars, List.Forall₂ Ingredient.IsServedAs is chars) ∨
      ∃ above i below chars fault, is = above ++ i :: below ∧
        List.Forall₂ Ingredient.IsServedAs above chars ∧ i.Unfit fault := by
  induction is with
  | nil => exact .inl ⟨[], .nil⟩
  | cons i is ih =>
    rcases i.servedAs_or_unfit with ⟨c, hc⟩ | ⟨fault, hunfit⟩
    · rcases ih with ⟨chars, hchars⟩ | ⟨above, j, below, chars, fault, rfl, habove, hunfit⟩
      · exact .inl ⟨c :: chars, .cons hc hchars⟩
      · exact .inr ⟨i :: above, j, below, c :: chars, fault, rfl, .cons hc habove, hunfit⟩
    · exact .inr ⟨[], i, is, [], fault, rfl, .nil, hunfit⟩

theorem forall_isCharacter {is : List Ingredient} {chars : List Char}
    (h : List.Forall₂ Ingredient.IsServedAs is chars) : ∀ i ∈ is, i.IsCharacter := by
  induction h with
  | nil => exact List.forall_mem_nil _
  | cons hc _ ih => exact List.forall_mem_cons.mpr ⟨hc.isCharacter, ih⟩

theorem mapM_toChar_of_served {is : List Ingredient} {chars : List Char}
    (h : List.Forall₂ Ingredient.IsServedAs is chars) : is.mapM Ingredient.toChar = .ok chars := by
  induction h with
  | nil => rfl
  | cons hc _ ih =>
    rw [mapM_cons_ok (Ingredient.toChar_of_servedAs hc), ih]
    rfl

/-- a dish of characters gives them all and is empty afterwards -/
theorem Container.serve_of_served {c : Container} {chars : List Char}
    (h : List.Forall₂ Ingredient.IsServedAs c.topDown chars) : c.serve = (.ok chars, .empty) := by
  unfold serve
  rw [mapM_toChar_of_served h]

/-- an ingredient that is no character ends the serving of its dish: what is above it is gone, and
so is the ingredient itself -/
theorem Container.serve_of_unfit {above below : List Ingredient} {chars : List Char}
    {i : Ingredient} {fault : RenderFault}
    (habove : List.Forall₂ Ingredient.IsServedAs above chars) (hi : i.Unfit fault) :
    (⟨above ++ i :: below⟩ : Container).serve = (.error (.unrenderable i.name fault), ⟨below⟩) := by
  have hrender := Ingredient.render_of_unfit hi
  have hfails : i.toChar = .error (.unrenderable i.name fault) := by
    unfold Ingredient.toChar
    rw [hrender]
    rfl
  have hstop : i.isRenderable = false := by
    unfold Ingredient.isRenderable
    rw [hrender]
  -- along what is above the ingredient, by induction: each one is a character and is dropped
  have hboth : (above ++ i :: below).mapM Ingredient.toChar =
        .error (.unrenderable i.name fault) ∧
      (above ++ i :: below).dropWhile Ingredient.isRenderable = i :: below := by
    induction habove with
    | nil =>
      refine ⟨mapM_cons_error hfails _, ?_⟩
      rw [List.nil_append, List.dropWhile_cons, hstop, if_neg Bool.false_ne_true]
    | @cons j c above chars hj _ ih =>
      have hchar := Ingredient.toChar_of_servedAs hj
      have hrenderable : j.isRenderable = true := by
        unfold Ingredient.toChar at hchar
        unfold Ingredient.isRenderable
        cases hr : j.render with
        | ok x => rfl
        | error e =>
          rw [hr] at hchar
          cases hchar
      rw [List.cons_append, mapM_cons_ok hchar, ih.1, List.dropWhile_cons, if_pos hrenderable]
      exact ⟨rfl, ih.2⟩
  unfold serve
  dsimp only
  rw [hboth.1, hboth.2]
  rfl

/-! ## dishes one after the other -/

/-- what is in some dishes, by the dishes and from the top -/
def inDishes (dishes : List (Nat × Container)) : List Ingredient :=
  dishes.flatMap fun d => d.2.topDown

theorem inDishes_cons (n : Nat) (c : Container) (dishes : List (Nat × Container)) :
    inDishes ((n, c) :: dishes) = c.topDown ++ inDishes dishes := rfl

namespace Kitchen

/-- some dishes made empty, one after the other -/
def emptyDishes (k : Kitchen) (ns : List Nat) : Kitchen :=
  ns.foldl (fun k n => k.changeDish n fun _ => .empty) k

theorem emptyDishes_cons (k : Kitchen) (n : Nat) (ns : List Nat) :
    k.emptyDishes (n :: ns) = (k.changeDish n fun _ => .empty).emptyDishes ns := rfl

theorem bowls_emptyDishes (k : Kitchen) (ns : List Nat) : (k.emptyDishes ns).bowls = k.bowls := by
  induction ns generalizing k with
  | nil => rfl
  | cons n ns ih =>
    rw [emptyDishes_cons, ih]
    rfl

theorem find?_emptyDishes (k : Kitchen) (ns : List Nat) (m : Nat) :
    (k.emptyDishes ns).dishes.find? m = if m ∈ ns then some .empty else k.dishes.find? m := by
  induction ns generalizing k with
  | nil => rfl
  | cons n ns ih =>
    rw [emptyDishes_cons, ih, find?_dishes_changeDish]
    by_cases hm : m = n
    · simp [hm]
    · simp [hm]

end Kitchen

/-- the first ingredient, by the dishes and from the top, that is no character: the dishes before
its own, what lies above and below it, and the dishes after its own -/
structure Stop (dishes : List (Nat × Container)) where
  before : List (Nat × Container)
  number : Nat
  above : List Ingredient
  ingredient : Ingredient
  below : List Ingredient
  after : List (Nat × Container)
  fault : RenderFault
  dishes_eq : dishes = before ++ (number, ⟨above ++ ingredient :: below⟩) :: after
  characters : ∀ i ∈ inDishes before ++ above, i.IsCharacter
  unfit : ingredient.Unfit fault

namespace Stop

variable {dishes : List (Nat × Container)}

/-- the error names the ingredient -/
def error (s : Stop dishes) : Error := .unrenderable s.ingredient.name s.fault

/-- the dishes before are empty, and what lies below the ingredient is left -/
def kitchen (s : Stop dishes) (k : Kitchen) : Kitchen :=
  (k.emptyDishes (s.before.map Prod.fst)).changeDish s.number fun _ => ⟨s.below⟩

/-- one dish more before the others -/
def behind {c : Container} (s : Stop dishes) (n : Nat) (h : ∀ i ∈ c.topDown, i.IsCharacter) :
    Stop ((n, c) :: dishes) where
  before := (n, c) :: s.before
  number := s.number
  above := s.above
  ingredient := s.ingredient
  below := s.below
  after := s.after
  fault := s.fault
  dishes_eq := congrArg _ s.dishes_eq
  characters := by
    rw [inDishes_cons, List.append_assoc]
    exact List.forall_mem_append.mpr ⟨h, s.characters⟩
  unfit := s.unfit

theorem mem_inDishes (s : Stop dishes) : s.ingredient ∈ inDishes dishes := by
  obtain ⟨before, n, above, i, below, after, fault, rfl, _, _⟩ := s
  have hdish : (n, ⟨above ++ i :: below⟩) ∈ before ++ (n, ⟨above ++ i :: below⟩) :: after :=
    List.mem_append_right _ List.mem_cons_self
  exact List.mem_flatMap.mpr ⟨_, hdish, List.mem_append_right _ List.mem_cons_self⟩

theorem find?_kitchen (s : Stop dishes) (k : Kitchen) (n : Nat) :
    (s.kitchen k).dishes.find? n =
      if n = s.number then some ⟨s.below⟩
      else if n ∈ s.before.map Prod.fst then some .empty else k.dishes.find? n := by
  unfold kitchen
  rw [Kitchen.find?_dishes_changeDish, Kitchen.find?_emptyDishes]

theorem find?_number (s : Stop dishes) (k : Kitchen) :
    (s.kitchen k).dishes.find? s.number = some ⟨s.below⟩ := by
  rw [s.find?_kitchen, if_pos rfl]

theorem number_mem (s : Stop dishes) : s.number ∈ dishes.map Prod.fst := by
  obtain ⟨before, n, above, i, below, after, fault, rfl, _, _⟩ := s
  exact List.mem_map_of_mem (List.mem_append_right _ List.mem_cons_self)

/-- the dishes before are those with smaller numbers -/
theorem mem_before_iff (s : Stop dishes) (h : dishes.Pairwise fun a b => a.1 < b.1) (n : Nat) :
    n ∈ s.before.map Prod.fst ↔ n < s.number ∧ n ∈ dishes.map Prod.fst := by
  obtain ⟨before, m, above, i, below, after, fault, rfl, _, _⟩ := s
  obtain ⟨_, hafter, hbefore⟩ := List.pairwise_append.mp h
  constructor
  · intro hn
    obtain ⟨d, hd, rfl⟩ := List.mem_map.mp hn
    refine ⟨hbefore d hd _ List.mem_cons_self, ?_⟩
    exact List.mem_map_of_mem (List.mem_append_left _ hd)
  · rintro ⟨hlt, hn⟩
    obtain ⟨d, hd, rfl⟩ := List.mem_map.mp hn
    rcases List.mem_append.mp hd with hd | hd
    · exact List.mem_map_of_mem hd
    · rcases List.mem_cons.mp hd with rfl | hd
      · exact absurd hlt (Nat.lt_irrefl _)
      · exact absurd hlt (Nat.lt_asymm ((List.pairwise_cons.mp hafter).1 d hd))

end Stop

/-- dishes are served to the end, or up to a stop; by induction on the dishes -/
theorem Kitchen.serveDishes_cases (dishes : List (Nat × Container)) (k : Kitchen) :
    (∃ chars, List.Forall₂ Ingredient.IsServedAs (inDishes dishes) chars ∧
      k.serveDishes dishes = (.ok chars, k.emptyDishes (dishes.map Prod.fst))) ∨
      ∃ s : Stop dishes, k.serveDishes dishes = (.error s.error, s.kitchen k) := by
  induction dishes generalizing k with
  | nil => exact .inl ⟨[], .nil, rfl⟩
  | cons d dishes ih =>
    obtain ⟨n, c⟩ := d
    rw [serveDishes]
    rcases served_or_unfit c.topDown with
      ⟨chars, hchars⟩ | ⟨above, i, below, chars, fault, htop, habove, hunfit⟩
    · rw [Container.serve_of_served hchars]
      dsimp only
      rcases ih (k.changeDish n fun _ => .empty) with ⟨more, hmore, hserve⟩ | ⟨s, hserve⟩
      · rw [hserve]
        exact .inl ⟨chars ++ more, List.rel_append hchars hmore, rfl⟩
      · rw [hserve]
        exact .inr ⟨s.behind n (forall_isCharacter hchars), rfl⟩
    · obtain rfl : c = ⟨above ++ i :: below⟩ := congrArg Container.mk htop
      rw [Container.serve_of_unfit habove hunfit]
      refine .inr ⟨⟨[], n, above, i, below, dishes, fault, rfl, ?_, hunfit⟩, rfl⟩
      exact forall_isCharacter habove

/-! ## the dishes of a serving -/

/-- the dishes in use with a number below `servings`, in the order of their numbers -/
structure Kitchen.ServedDishes (k : Kitchen) (servings : Nat) (dishes : List (Nat × Container)) :
    Prop where
  ascending : dishes.Pairwise fun a b => a.1 < b.1
  exactly : ∀ n c, (n, c) ∈ dishes ↔ k.dishes.find? n = some c ∧ n < servings

namespace Kitchen

theorem servedDishes_dishesBelow (k : Kitchen) (servings : Nat) :
    k.ServedDishes servings (k.dishesBelow servings) where
  ascending := by
    have hall : k.dishes.entries.Pairwise fun a b => a.1 < b.1 :=
      k.dishes.ascending.imp fun h => Nat.compare_eq_lt.mp h
    exact hall.filter _
  exactly n c := by
    unfold dishesBelow
    rw [List.mem_filter, Table.mem_entries_iff, decide_eq_true_iff]

namespace ServedDishes

variable {k : Kitchen} {servings : Nat} {dishes : List (Nat × Container)}

theorem mem_map_fst (h : k.ServedDishes servings dishes) (n : Nat) :
    n ∈ dishes.map Prod.fst ↔ n < servings ∧ ∃ c, k.dishes.find? n = some c := by
  rw [List.mem_map]
  constructor
  · rintro ⟨⟨m, c⟩, hmem, rfl⟩
    obtain ⟨hfind, hlt⟩ := (h.exactly m c).mp hmem
    exact ⟨hlt, c, hfind⟩
  · rintro ⟨hlt, c, hfind⟩
    exact ⟨(n, c), (h.exactly n c).mpr ⟨hfind, hlt⟩, rfl⟩

/-- dishes that are served are made empty, whether others are there or not -/
theorem find?_emptyDishes (h : k.ServedDishes servings dishes) (n : Nat) :
    (k.emptyDishes (dishes.map Prod.fst)).dishes.find? n =
      if n < servings then (k.dishes.find? n).map fun _ => .empty else k.dishes.find? n := by
  rw [Kitchen.find?_emptyDishes]
  have hmem := h.mem_map_fst n
  by_cases hlt : n < servings
  · cases hfind : k.dishes.find? n with
    | none => simp [hmem, hfind]
    | some c => simp [hmem, hfind, hlt]
  · simp [hmem, hlt]

theorem mem_inDishes_iff (h : k.ServedDishes servings dishes) (i : Ingredient) :
    i ∈ inDishes dishes ↔ ∃ n c, k.dishes.find? n = some c ∧ n < servings ∧ i ∈ c.topDown := by
  unfold inDishes
  rw [List.mem_flatMap]
  constructor
  · rintro ⟨⟨n, c⟩, hmem, hi⟩
    obtain ⟨hfind, hlt⟩ := (h.exactly n c).mp hmem
    exact ⟨n, c, hfind, hlt, hi⟩
  · rintro ⟨n, c, hfind, hlt, hi⟩
    exact ⟨(n, c), (h.exactly n c).mpr ⟨hfind, hlt⟩, hi⟩

/-- before a stop the dishes in use are empty, after it they are as they were -/
theorem find?_before_stop (h : k.ServedDishes servings dishes) (s : Stop dishes) (n : Nat)
    (hn : n < s.number) :
    (s.kitchen k).dishes.find? n = (k.dishes.find? n).map fun _ => .empty := by
  have hstop := ((h.mem_map_fst _).mp s.number_mem).1
  rw [s.find?_kitchen, if_neg (Nat.ne_of_lt hn)]
  have hmem : n ∈ s.before.map Prod.fst ↔ ∃ c, k.dishes.find? n = some c := by
    rw [s.mem_before_iff h.ascending, h.mem_map_fst]
    exact ⟨fun hn => hn.2.2, fun hc => ⟨hn, Nat.lt_trans hn hstop, hc⟩⟩
  cases hfind : k.dishes.find? n with
  | none => simp [hmem, hfind]
  | some c => simp [hmem, hfind]

theorem find?_after_stop (h : k.ServedDishes servings dishes) (s : Stop dishes) (n : Nat)
    (hn : s.number < n) : (s.kitchen k).dishes.find? n = k.dishes.find? n := by
  rw [s.find?_kitchen, if_neg (Nat.ne_of_gt hn), if_neg]
  rw [s.mem_before_iff h.ascending]
  omega

end ServedDishes

theorem serve_cases (k : Kitchen) (servings : Nat) :
    (∃ text : String,
      List.Forall₂ Ingredient.IsServedAs (inDishes (k.dishesBelow servings)) text.toList ∧
      k.serve servings = (.ok text, k.emptyDishes ((k.dishesBelow servings).map Prod.fst))) ∨
      ∃ s : Stop (k.dishesBelow servings), k.serve servings = (.error s.error, s.kitchen k) := by
  unfold serve
  rcases k.serveDishes_cases (k.dishesBelow servings) with ⟨chars, hchars, hserve⟩ | ⟨s, hserve⟩
  · refine .inl ⟨String.ofList chars, ?_, ?_⟩
    · rw [String.toList_ofList]
      exact hchars
    · rw [hserve]
  · refine .inr ⟨s, ?_⟩
    rw [hserve]

end Kitchen

/-- a serving goes through the dishes in use below the serving count, by their numbers.  It succeeds
if and only if all that is in them are characters; it then gives these characters from the top of
each dish, and the dishes stay, empty.  Else the error names the first ingredient on the way that
is no character; the dishes before its own are empty, and its own keeps what lies below it.  All
else is as it was. -/
theorem serve_served_dishes (k : Kitchen) (servings : Nat) :
    ∃ dishes, k.ServedDishes servings dishes ∧
      ((∃ text, (k.serve servings).1 = .ok text) ↔
        ∀ n c, k.dishes.find? n = some c → n < servings → ∀ i ∈ c.topDown, i.IsCharacter) ∧
      (∀ text, (k.serve servings).1 = .ok text →
        List.Forall₂ Ingredient.IsServedAs (inDishes dishes) text.toList ∧
        (k.serve servings).2.bowls = k.bowls ∧
        ∀ n, (k.serve servings).2.dishes.find? n =
          if n < servings then (k.dishes.find? n).map fun _ => .empty else k.dishes.find? n) ∧
      ∀ e, (k.serve servings).1 = .error e →
        ∃ s : Stop dishes, e = .unrenderable s.ingredient.name s.fault ∧
          (k.serve servings).2.bowls = k.bowls ∧
          (∀ n, n < s.number →
            (k.serve servings).2.dishes.find? n = (k.dishes.find? n).map fun _ => .empty) ∧
          (k.serve servings).2.dishes.find? s.number = some ⟨s.below⟩ ∧
          ∀ n, s.number < n → (k.serve servings).2.dishes.find? n = k.dishes.find? n := by
  have hserved := k.servedDishes_dishesBelow servings
  refine ⟨k.dishesBelow servings, hserved, ?_⟩
  rcases k.serve_cases servings with ⟨text, hchars, hserve⟩ | ⟨s, hserve⟩
  · rw [hserve]
    refine ⟨⟨fun _ n c hfind hlt i hi => ?_, fun _ => ⟨text, rfl⟩⟩, ?_, nofun⟩
    · exact forall_isCharacter hchars i ((hserved.mem_inDishes_iff i).mpr ⟨n, c, hfind, hlt, hi⟩)
    · intro text' htext
      obtain rfl := Except.ok.inj htext
      exact ⟨hchars, k.bowls_emptyDishes _, hserved.find?_emptyDishes⟩
  · rw [hserve]
    refine ⟨⟨nofun, fun hall => ?_⟩, nofun, ?_⟩
    · obtain ⟨n, c, hfind, hlt, hi⟩ := (hserved.mem_inDishes_iff _).mp s.mem_inDishes
      exact absurd (hall n c hfind hlt _ hi) s.unfit.not_isCharacter
    · intro e he
      obtain rfl := Except.error.inj he
      exact ⟨s, rfl, k.bowls_emptyDishes _, hserved.find?_before_stop s, s.find?_number k,
        hserved.find?_after_stop s⟩

end Cookery

import Cookery.Kitchen.Container
import Mathlib.Data.List.Rotate

/-!
# Stirring rotates the top of a stack

Stirring moves the top ingredient past the ones below it, as many as there are minutes or as many as
there are at all.  Read from the top, the layer that it takes part in is rotated by one, and the
layer under it is left alone.  The size of a container does not change, so the next stirring meets
the same two layers.

* `Container.depth`          how far down the top ingredient goes;
* `Container.Layered`        a container as the layer that is rotated on the layer that is not;
* `Layered.stir`, `Layered.iterate_stir`   one stirring, and any number of them;
* `perm_stir`, `stir_map`    the order alone changes, whatever the single ingredients are;
* `stir_rotates`             where everything lies afterwards, and when it is back in its place.
-/

namespace Cookery

namespace Container

/-- the number of places by which stirring moves the top ingredient down -/
def depth (c : Container) (minutes : Nat) : Nat := min minutes (c.size - 1)

theorem depth_stir (c : Container) (minutes : Nat) :
    (c.stir minutes).depth minutes = c.depth minutes := by
  unfold depth
  rw [size_stir]

section
variable {c : Container} {top : Ingredient} {below : List Ingredient}

theorem depth_of_cons (h : c.topDown = top :: below) (minutes : Nat) :
    c.depth minutes = min minutes below.length := by
  simp only [depth, size, h, List.length_cons, Nat.add_sub_cancel]

/-- minutes past the bottom make no difference -/
theorem topDown_stir (h : c.topDown = top :: below) (minutes : Nat) :
    (c.stir minutes).topDown =
      below.take (c.depth minutes) ++ top :: below.drop (c.depth minutes) := by
  unfold stir
  rw [h, depth_of_cons h, ← List.take_eq_take_min, ← List.drop_eq_drop_min]

end

/-! ## layers -/

/-- read from the top, the ingredients that change places when `c` is stirred, and the others -/
structure Layered (c : Container) (minutes : Nat) (moving still : List Ingredient) : Prop where
  topDown_eq : c.topDown = moving ++ still
  length_moving : moving.length = c.depth minutes + 1

theorem layered_of_cons {c : Container} {top : Ingredient} {below : List Ingredient}
    (h : c.topDown = top :: below) (minutes : Nat) :
    c.Layered minutes (top :: below.take (c.depth minutes)) (below.drop (c.depth minutes)) where
  topDown_eq := by rw [h, List.cons_append, List.take_append_drop]
  length_moving := by
    have hle : c.depth minutes ≤ below.length := by
      rw [depth_of_cons h]
      exact Nat.min_le_right _ _
    rw [List.length_cons, List.length_take_of_le hle]

namespace Layered

variable {c : Container} {minutes : Nat} {moving still : List Ingredient}

/-- one stirring: the top ingredient goes to the end of its layer -/
theorem stir (h : c.Layered minutes moving still) :
    (c.stir minutes).Layered minutes (moving.rotate 1) still where
  topDown_eq := by
    obtain ⟨top, passed, rfl⟩ := List.exists_cons_of_length_eq_add_one h.length_moving
    have hpassed : passed.length = c.depth minutes := Nat.succ.inj h.length_moving
    have htop : c.topDown = top :: (passed ++ still) := h.topDown_eq
    rw [topDown_stir htop, ← hpassed, List.take_left, List.drop_left, List.rotate_cons_succ,
      List.rotate_zero, List.append_assoc, List.singleton_append]
  length_moving := by rw [List.length_rotate, h.length_moving, depth_stir]

/-- any number of stirrings, by induction: each one leaves the same layers to the next -/
theorem iterate_stir (h : c.Layered minutes moving still) (times : Nat) :
    ((Container.stir · minutes)^[times] c).Layered minutes (moving.rotate times) still := by
  induction times with
  | zero =>
    rw [List.rotate_zero]
    exact h
  | succ times ih =>
    rw [Function.iterate_succ_apply', ← List.rotate_rotate]
    exact ih.stir

/-- after as many stirrings as the layer has ingredients, each of them was on top once -/
theorem iterate_stir_depth (h : c.Layered minutes moving still) :
    (Container.stir · minutes)^[c.depth minutes + 1] c = c := by
  have hround := h.iterate_stir moving.length
  rw [List.rotate_length] at hround
  rw [← h.length_moving]
  exact congrArg Container.mk (hround.topDown_eq.trans h.topDown_eq.symm)

end Layered

/-! ## what stirring does not look at -/

/-- stirring changes the order only -/
theorem perm_stir (c : Container) (minutes : Nat) : (c.stir minutes).topDown.Perm c.topDown := by
  cases htop : c.topDown with
  | nil =>
    unfold stir
    rw [htop]
    exact .of_eq htop
  | cons top below =>
    have hlayers := layered_of_cons htop minutes
    rw [hlayers.stir.topDown_eq, ← htop, hlayers.topDown_eq]
    exact (List.rotate_perm _ 1).append_right _

/-- ingredients that are changed one by one are stirred in the same way -/
theorem stir_map (f : Ingredient → Ingredient) (c : Container) (minutes : Nat) :
    (Container.mk (c.topDown.map f)).stir minutes = ⟨(c.stir minutes).topDown.map f⟩ := by
  obtain ⟨topDown⟩ := c
  cases topDown with
  | nil => rfl
  | cons top below =>
    simp only [stir, List.map_cons, List.map_append, List.map_take, List.map_drop]

end Container

/-- with `depth` the number of minutes or of the ingredients under the top, whichever is less: the
lowest ingredients stay, the top comes to lie on them and the `depth` others on it, in their order;
nothing is lost or added; one stirring more than `depth` restores the container; and it makes no
difference whether the ingredients are liquefied before or afterwards -/
theorem stir_rotates (c : Container) (minutes : Nat) (h : 1 ≤ c.size) :
    (∃ low high : List Ingredient, ∃ top : Ingredient,
      c.contents = low ++ high ++ [top] ∧
      low.length = c.size - 1 - min minutes (c.size - 1) ∧
      high.length = min minutes (c.size - 1) ∧
      (c.stir minutes).contents = low ++ [top] ++ high) ∧
    (c.stir minutes).contents.Perm c.contents ∧
    (Container.stir · minutes)^[min minutes (c.size - 1) + 1] c = c ∧
    (c.stir minutes).liquefy = c.liquefy.stir minutes := by
  obtain ⟨top, below, htop⟩ := List.exists_cons_of_length_pos h
  have hlayers := Container.layered_of_cons htop minutes
  refine ⟨⟨(below.drop (c.depth minutes)).reverse, (below.take (c.depth minutes)).reverse, top,
    ?_, ?_, ?_, ?_⟩, ?_, hlayers.iterate_stir_depth, ?_⟩
  · unfold Container.contents
    rw [hlayers.topDown_eq, List.reverse_append, List.reverse_cons, List.append_assoc]
  · have hsize : c.size = below.length + 1 := congrArg List.length htop
    rw [List.length_reverse, List.length_drop, Container.depth, hsize, Nat.add_sub_cancel]
  · rw [List.length_reverse]
    exact Nat.succ.inj hlayers.length_moving
  · unfold Container.contents
    rw [Container.topDown_stir htop, List.reverse_append, List.reverse_cons]
  · exact ((c.stir minutes).topDown.reverse_perm.trans (c.perm_stir minutes)).trans
      c.topDown.reverse_perm.symm
  · exact (c.stir_map Ingredient.liquefied minutes).symm

/-- four layers of a trifle, the cream on top -/
def trifle : Container :=
  .ofContents (["sponge", "jelly", "custard", "cream"].map fun name => ⟨name, none, .dry⟩)

/-- for two minutes the sponge stays, for nine it does not -/
theorem trifle_stirred :
    1 ≤ trifle.size ∧
      (∃ low high top, trifle.contents = low ++ high ++ [top] ∧ low.length = 1 ∧
        high.length = 2 ∧ (trifle.stir 2).contents = low ++ [top] ++ high) ∧
      (Container.stir · 2)^[3] trifle = trifle ∧
      (Container.stir · 9)^[4] trifle = trifle ∧
      (trifle.stir 9).liquefy = trifle.liquefy.stir 9 := by
  have hsize : 1 ≤ trifle.size := by decide
  obtain ⟨hlayers, _, htwo, _⟩ := stir_rotates trifle 2 hsize
  obtain ⟨_, _, hnine, hliquid⟩ := stir_rotates trifle 9 hsize
  exact ⟨hsize, hlayers, htwo, hnine, hliquid⟩

end Cookery

import Cookery.Ingredient.Basic

/-!
# Containers: stacks of ingredients

A mixing bowl or a baking dish is a stack.  `topDown` lists it from the top; `contents` lists it
from the bottom, the way it was filled.

* `push`, `pop?`, `top?`   at the top;
* `liquefy`, `stir`, `pourOnto`   on the whole stack;
* `contents_push`, `contents_pourOnto`, …   what each does to the contents.
-/

namespace Cookery

structure Container where
  topDown : List Ingredient := []
deriving DecidableEq

namespace Container

def empty : Container := {}

/-- the ingredients from the bottom to the top -/
def contents (c : Container) : List Ingredient := c.topDown.reverse

def ofContents (is : List Ingredient) : Container := ⟨is.reverse⟩

def size (c : Container) : Nat := c.topDown.length

def isEmpty (c : Container) : Bool := c.topDown.isEmpty

def top? (c : Container) : Option Ingredient := c.topDown.head?

def push (c : Container) (i : Ingredient) : Container := ⟨i :: c.topDown⟩

/-- take the top ingredient off -/
def pop (c : Container) : Container := ⟨c.topDown.tail⟩

/-- turn all ingredients into liquids -/
def liquefy (c : Container) : Container := ⟨c.topDown.map Ingredient.liquefied⟩

/-- move the top ingredient down by as many places as minutes, at most to the bottom -/
def stir (c : Container) (minutes : Nat) : Container :=
  match c.topDown with
  | [] => c
  | top :: below => ⟨below.take minutes ++ top :: below.drop minutes⟩

/-- copy the ingredients, in their order, on top of another container -/
def pourOnto (c below : Container) : Container := ⟨c.topDown ++ below.topDown⟩

/-! ## contents -/

theorem contents_empty : empty.contents = [] := rfl

theorem contents_ofContents (is : List Ingredient) : (ofContents is).contents = is :=
  List.reverse_reverse is

theorem contents_push (c : Container) (i : Ingredient) :
    (c.push i).contents = c.contents ++ [i] := by
  simp [push, contents]

theorem contents_liquefy (c : Container) :
    c.liquefy.contents = c.contents.map Ingredient.liquefied := by
  simp [liquefy, contents]

theorem contents_pourOnto (c below : Container) :
    (c.pourOnto below).contents = below.contents ++ c.contents := by
  simp [pourOnto, contents]

theorem size_push (c : Container) (i : Ingredient) : (c.push i).size = c.size + 1 := rfl

theorem size_stir (c : Container) (minutes : Nat) : (c.stir minutes).size = c.size := by
  unfold stir
  split
  · rfl
  · rename_i top below h
    simp only [size, h, List.length_append, List.length_cons, List.length_take, List.length_drop]
    omega

end Container

end Cookery

import Cookery.Cooking.Basic

/-!
# Blocks: methods whose loops are nested

A block is a method as a tree: actions and loops one after the other, and a loop holds its body.

* `Block.flatten`   the block written as a flat method;
* `Block.execute`   the block carried out along its tree;
* `Block.Closed`    every loop ends at its own loop end.
-/

namespace Cookery

inductive Block where
  | done
  | act (action : Action) (next : Block)
  | loop (verb ingredient verbed : String) (until? : Option String) (body next : Block)
deriving DecidableEq

namespace Block

def flatten : Block → List Statement
  | .done => []
  | .act action next => .act action :: next.flatten
  | .loop verb ingredient verbed until? body next =>
    .loopStart verb ingredient :: (body.flatten ++ .loopEnd verbed until? :: next.flatten)

/-- carry out a block: its items in order, a loop by the passes of its body -/
def execute (limit : Nat) : Block → Cooking Unit
  | .done => return ()
  | .act action next => do
    emit (.resolve (.act action))
    action.perform
    next.execute limit
  | .loop verb ingredient _ until? body next => do
    emit (.resolve (.loopStart verb ingredient))
    passes verb ingredient (until?.getD ingredient) (body.execute limit) 0 limit
    next.execute limit

/-- the word at the end of each loop is a past tense of its verb, and no loop end inside the body
has such a word -/
def Closed : Block → Prop
  | .done => True
  | .act _ next => next.Closed
  | .loop verb _ verbed _ body next =>
    isPastTense verbed verb = true ∧ (∀ s ∈ body.flatten, s.closes verb = false) ∧
      body.Closed ∧ next.Closed

end Block

end Cookery

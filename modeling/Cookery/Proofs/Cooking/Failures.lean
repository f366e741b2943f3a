import Cookery.Proofs.Cooking.Progress
import Cookery.Proofs.Cooking.Stages
import Cookery.Proofs.Reading.ErrorLines

/-!
# Errors tell where they come from

An error of reading is bare and names a line.  An error of a method is bare too, however deep the
loop in which it arises, and one context is put around it, the title of the main preparation.  An
error of serving is bare again.  So an error shows which of the three has failed.

* `Error.OfMethod`        the errors of a method;
* `Task.KeepsCount`       the passes that a loop has made and has left are those of the limit;
* `failures_keptBySteps`  a step that fails gives such an error, `ofMethod_of_runMethod` a method;
* `Error.OfRun`, `run_error_ofRun`   the errors of a run;
* `error_phases`          reading and cooking, for all texts.
-/

namespace Cookery

/-! ## methods -/

/-- a fault of a statement, in its own words; that a recipe is unknown is none -/
def CookFault.OfStatement : CookFault → Prop
  | .unknownRecipe _ => False
  | .worded _ => False
  | _ => True

/-- the errors of a method, with nothing around them; a loop that goes on for too long names the
limit -/
def Error.OfMethod (limit : Nat) : Error → Prop
  | .runtime fault => fault.OfStatement
  | .unknownIngredient _ => True
  | .loopLimit _ passes => passes = limit
  | _ => False

theorem ofMethod_of_effect {limit : Nat} {a : Action} {k k' : Kitchen} {p : Pantry} {e : Error}
    (h : a.effect k p = (.error e, k')) : e.OfMethod limit := by
  obtain ⟨name, _, ⟨_, _, rfl⟩ | ⟨n, i, _, _, ⟨_, _, rfl⟩ | ⟨_, fault, _, hc, _, rfl⟩⟩⟩ :=
    Action.effect_error h
  · trivial
  · trivial
  · rcases combined_eq_error hc with rfl | ⟨top, _, _, rfl⟩ | rfl
    · trivial
    · trivial
    · trivial

theorem ofMethod_of_loopCheck {limit : Nat} {ingredient : String} {p : Pantry} {e : Error}
    (h : loopCheck ingredient p = .error e) : e.OfMethod limit := by
  rcases loopCheck_eq_error h with ⟨_, rfl⟩ | ⟨_, _, _, rfl⟩
  · trivial
  · trivial

theorem ofMethod_of_countDown {limit : Nat} {counter : String} {p : Pantry} {e : Error}
    (h : countDown counter p = .error e) : e.OfMethod limit := by
  rcases countDown_eq_error h with ⟨_, rfl⟩ | ⟨_, _, _, rfl⟩ | rfl
  · trivial
  · trivial
  · trivial

/-- the passes of a loop are those of the limit, made or left -/
def Task.KeepsCount (limit : Nat) : Task → Prop
  | .loop _ _ _ _ made left => made + left = limit
  | _ => True

theorem Task.Step.keepsCount {limit : Nat} {t : Task} {b b' : Bench} {us : List Task}
    (h : t.Step limit b (.ok us) b') (ht : t.KeepsCount limit) : ∀ u ∈ us, u.KeepsCount limit := by
  cases h with
  | done => exact List.forall_mem_nil _
  | act effect =>
    intro u hu
    obtain rfl := List.mem_singleton.mp hu
    trivial
  | entered found =>
    intro u hu
    simp only [List.mem_cons, List.not_mem_nil, or_false] at hu
    rcases hu with rfl | rfl
    · exact Nat.zero_add limit
    · trivial
  | finished check zero => exact List.forall_mem_nil _
  | @pass verb ingredient counter body made left _ value check nonzero =>
    intro u hu
    simp only [List.mem_cons, List.not_mem_nil, or_false] at hu
    rcases hu with rfl | rfl | rfl
    · trivial
    · trivial
    · have hcount : made + (left + 1) = limit := ht
      show made + 1 + left = limit
      omega
  | counted count => exact List.forall_mem_nil _

theorem Task.Step.ofMethod {limit : Nat} {t : Task} {b b' : Bench} {e : Error}
    (h : t.Step limit b (.error e) b') (ht : t.KeepsCount limit) : e.OfMethod limit := by
  cases h with
  | failed effect => exact ofMethod_of_effect effect
  | unclosed found => trivial
  | stray => trivial
  | unchecked check => exact ofMethod_of_loopCheck check
  -- no pass is left, so the passes made are all those of the limit
  | usedUp check nonzero => exact ht
  | uncounted count => exact ofMethod_of_countDown count

theorem failures_keptBySteps (limit : Nat) :
    KeptBySteps limit (Task.KeepsCount limit) (fun _ _ => True) (Error.OfMethod limit) where
  goes_on ht _ step := ⟨step.keepsCount ht, trivial⟩
  stops ht _ step := ⟨step.ofMethod ht, trivial⟩

theorem ofMethod_of_runMethod {limit : Nat} {method : List Statement} {kitchen : Kitchen}
    {pantry : Pantry} {e : Error} {b : Bench}
    (h : runMethod limit method kitchen pantry = (.error e, b)) : e.OfMethod limit := by
  exact error_of_runMethod (failures_keptBySteps limit) trivial (congrArg Prod.fst h)

/-! ## runs -/

/-- the errors of a recipe with this title for its main preparation: those of serving, and those of
the method with the title around them -/
def Error.OfRun (limit : Nat) (title : String) (e : Error) : Prop :=
  (∃ name fault, e = .unrenderable name fault) ∨
    ∃ cause, e = .inContext cause ("in recipe '" ++ title ++ "'") ∧ cause.OfMethod limit

theorem Error.OfMethod.isParse_eq {limit : Nat} {e : Error} (h : e.OfMethod limit) :
    e.isParse = false := by
  cases e with
  | parse line fault => exact h.elim
  | inContext inner context => exact h.elim
  | _ => rfl

theorem Error.OfRun.isParse_eq {limit : Nat} {title : String} {e : Error}
    (h : e.OfRun limit title) : e.isParse = false := by
  rcases h with ⟨name, fault, rfl⟩ | ⟨cause, rfl, hcause⟩
  · rfl
  · exact hcause.isParse_eq

theorem unrenderable_of_serve {k : Kitchen} {servings : Nat} {e : Error}
    (h : (k.serve servings).1 = .error e) : ∃ name fault, e = .unrenderable name fault := by
  obtain ⟨_, _, i, _, hi⟩ := Kitchen.exists_of_serve_eq_error h
  unfold Ingredient.toChar at hi
  cases hr : i.render with
  | ok c =>
    rw [hr] at hi
    cases hi
  | error fault =>
    rw [hr] at hi
    cases hi
    exact ⟨i.name, fault, rfl⟩

theorem run_error_ofRun {r : Recipe} {main : Preparation} (hmain : r.main? = some main)
    {limit : Nat} {e : Error} (h : (r.run limit).result = .error e) : e.OfRun limit main.title := by
  rcases Recipe.run_eq_error hmain h with ⟨cause, b, hrun, rfl⟩ | ⟨b, _, hserve⟩
  · exact .inr ⟨cause, rfl, ofMethod_of_runMethod hrun⟩
  · exact .inl (unrenderable_of_serve hserve)

/-! ## reading and cooking -/

theorem line_of_recipe_parse_error {source : String} {e : ReadError}
    (h : Recipe.parse source = .error e) :
    e.line ≤ (documentLines source).length ∧ (e.line = 0 ↔ source = "") := by
  rw [← textLines_eq]
  unfold Recipe.parse at h
  cases hd : Document.parse source with
  | ok d =>
    rw [hd] at h
    cases h
  | error e' =>
    rw [hd] at h
    cases h
    exact line_of_parse_error hd

/-- a recipe that was read has a main preparation, which gives it its title -/
theorem exists_main_of_parse {source : String} {r : Recipe} (h : Recipe.parse source = .ok r) :
    ∃ main, r.main? = some main ∧ main.title = r.title := by
  obtain ⟨d, hform, rfl⟩ := (recipe_parse_iff source r).mp h
  exact ⟨d.main, Document.main?_recipe hform.titled, rfl⟩

/-- an error is one of reading iff the text cannot be read, and it then names a line of the text;
the errors of a recipe that was read are those of its run -/
theorem error_phases (source : String) :
    ((∃ e, cook source = .error e ∧ e.isParse = true) ↔ ∃ e, Recipe.parse source = .error e) ∧
    (∀ e, Recipe.parse source = .error e →
      cook source = .error (.parse e.line e.fault) ∧
      e.line ≤ (documentLines source).length ∧ (e.line = 0 ↔ source = "")) ∧
    ∀ r, Recipe.parse source = .ok r →
      ∃ main, r.main? = some main ∧ main.title = r.title ∧
        ∀ limit e, (r.run limit).result = .error e → e.OfRun limit main.title := by
  have hread : ∀ e, Recipe.parse source = .error e →
      cook source = .error (.parse e.line e.fault) := by
    intro e he
    unfold cook
    rw [he]
    rfl
  refine ⟨⟨?_, ?_⟩, fun e he => ⟨hread e he, line_of_recipe_parse_error he⟩, fun r hr => ?_⟩
  · rintro ⟨e, he, hparse⟩
    cases hr : Recipe.parse source with
    | error e' => exact ⟨e', rfl⟩
    | ok r =>
      obtain ⟨main, hmain, _⟩ := exists_main_of_parse hr
      unfold cook at he
      rw [hr] at he
      have hrun := run_error_ofRun hmain he
      rw [hrun.isParse_eq] at hparse
      cases hparse
  · rintro ⟨e, he⟩
    exact ⟨_, hread e he, rfl⟩
  · obtain ⟨main, hmain, htitle⟩ := exists_main_of_parse hr
    exact ⟨main, hmain, htitle, fun limit e he => run_error_ofRun hmain he⟩

/-- a title alone fails on its line; three rows are too many for two passes -/
theorem error_phases_dough :
    (∃ e, Recipe.parse "Dough" = .error e ∧ e.line = 1 ∧ e.line ≤ (documentLines "Dough").length ∧
      cook "Dough" = .error (.parse e.line e.fault)) ∧
    ∃ r e, Recipe.parse doughText = .ok r ∧ (r.run 2).result = .error e ∧ e.OfRun 2 r.title := by
  have htitle : Recipe.parse "Dough" = .error ⟨1, .missingHeading .ingredients⟩ := rfl
  obtain ⟨hcook, hline, _⟩ := (error_phases "Dough").2.1 _ htitle
  obtain ⟨main, _, hmain, hrun⟩ := (error_phases doughText).2.2 _ parse_doughText
  obtain ⟨e, herror⟩ :=
    exists_error_of_isOk (x := ((Document.recipe ⟨1, doughMain, []⟩).run 2).result)
      (by decide +kernel)
  have he := hrun 2 e herror
  rw [hmain] at he
  exact ⟨⟨_, htitle, rfl, hline, hcook⟩, _, e, parse_doughText, herror, he⟩

end Cookery

import Cookery.Proofs.Cooking.Failures
import Cookery.Proofs.Reading.WellFormed
import Cookery.Proofs.Text.Bytes

/-!
# Cooking with checked numbers

Numbers here have no bound, and a list can be cut anywhere.  Where counts end at `countMax`, where
nothing is below zero, and where an index has to be in its list, the same work can break off.  This
module carries it out with all of this checked, and shows that it never breaks off for a recipe that
was read from a text.

* `plus?`, `minus?`, `slice?`, `insertAt?`   checked arithmetic and indices;
* `Statement.text?`, `Error.message?`   texts that show a container by its number plus one;
* `Container.stir?`, `pastTenses?`, `containerNumber?`   checked forms of three functions that
                         subtract;
* `Checked`              a computation at the bench that may break off;
* `followChecked`        a method by index, with its loops as slices of it;
* `followChecked_eq`     it is `follow`, if the limit and the containers are in range;
* `StaysInRange`, `staysInRange`   reading, showing and cooking stay in range for every text.
-/

set_option linter.unusedVariables false

namespace Cookery

/-! ## numbers and indices -/

/-- the sum, if it can be counted -/
def plus? (a b : Nat) : Option Nat := if a + b ≤ countMax then some (a + b) else none

/-- the difference, if it is not below zero -/
def minus? (a b : Nat) : Option Nat := if b ≤ a then some (a - b) else none

section
variable {α : Type}

/-- the part of a list from one index up to another, if the two are in order and in the list -/
def slice? (xs : List α) (start stop : Nat) : Option (List α) :=
  if start ≤ stop ∧ stop ≤ xs.length then some ((xs.take stop).drop start) else none

/-- a member more at an index, if the index is in the list or at its end -/
def insertAt? (xs : List α) (place : Nat) (x : α) : Option (List α) :=
  if place ≤ xs.length then some (xs.take place ++ x :: xs.drop place) else none

theorem mem_of_slice? {xs ys : List α} {start stop : Nat} (h : slice? xs start stop = some ys)
    {x : α} (hx : x ∈ ys) : x ∈ xs := by
  unfold slice? at h
  split at h
  · obtain rfl := Option.some.inj h
    exact List.mem_of_mem_take (List.mem_of_mem_drop hx)
  · cases h

theorem length_of_slice? {xs ys : List α} {start stop : Nat} (h : slice? xs start stop = some ys) :
    start + ys.length ≤ xs.length := by
  unfold slice? at h
  split at h
  · rename_i hrange
    obtain rfl := Option.some.inj h
    rw [List.length_drop, List.length_take]
    omega
  · cases h

end

theorem plus?_one {n : Nat} (h : n < countMax) : plus? n 1 = some (n + 1) := if_pos h

theorem minus?_of_le {a b : Nat} (h : b ≤ a) : minus? a b = some (a - b) := if_pos h

/-! ## texts -/

def bowlText? (bowl : Nat) : Option String :=
  (plus? bowl 1).map fun n => "mixing bowl #" ++ toString n

def dishText? (dish : Nat) : Option String :=
  (plus? dish 1).map fun n => "baking dish #" ++ toString n

def Action.text? : Action → Option String
  | .put ingredient bowl => do
    let bowl ← bowlText? bowl
    some ("Put " ++ ingredient ++ " into " ++ bowl)
  | .combine ingredient bowl => do
    let bowl ← bowlText? bowl
    some ("Combine " ++ ingredient ++ " into " ++ bowl)
  | .liquefy bowl => do
    let bowl ← bowlText? bowl
    some ("Liquefy " ++ bowl)
  | .pour bowl dish => do
    let bowl ← bowlText? bowl
    let dish ← dishText? dish
    some ("Pour " ++ bowl ++ " into " ++ dish)
  | .stir bowl minutes => do
    let bowl ← bowlText? bowl
    some ("Stir " ++ bowl ++ " for " ++ toString minutes ++ " minutes")

def Statement.text? : Statement → Option String
  | .act action => action.text?
  | st => some st.text

def CookFault.message? : CookFault → Option String
  | .combineIntoEmpty name bowl => do
    let n ← plus? bowl 1
    some s!"Cannot combine '{name}' into empty mixing bowl #{n}"
  | fault => some fault.message

def Error.message? : Error → Option String
  | .runtime fault => do
    let text ← fault.message?
    some s!"Runtime error: {text}"
  | .inContext inner context => do
    let text ← inner.message?
    some s!"{text}\nContext: {context}"
  | e => some e.message

/-- the containers of a statement can be counted from one, and its minutes can be counted -/
structure Statement.InRange (st : Statement) : Prop where
  containers : ∀ n ∈ st.containers, n < countMax
  minutes : ∀ bowl minutes, st = .act (.stir bowl minutes) → minutes ≤ countMax

theorem Statement.Readable.inRange {st : Statement} (h : st.Readable) : st.InRange where
  containers n hn := Nat.lt_of_le_of_lt (h.containers_le n hn) (by decide)
  minutes := by
    rintro bowl minutes rfl
    exact h.2

theorem bowlText?_eq {bowl : Nat} (h : bowl < countMax) :
    bowlText? bowl = some (bowlText bowl) := by
  rw [bowlText?, plus?_one h]
  rfl

theorem dishText?_eq {dish : Nat} (h : dish < countMax) :
    dishText? dish = some (dishText dish) := by
  rw [dishText?, plus?_one h]
  rfl

theorem Statement.text?_eq {st : Statement} (h : st.InRange) : st.text? = some st.text := by
  match st with
  | .act (.put ingredient bowl) =>
    have hbowl := bowlText?_eq (h.containers bowl List.mem_cons_self)
    simp only [text?, Action.text?, hbowl]
    rfl
  | .act (.combine ingredient bowl) =>
    have hbowl := bowlText?_eq (h.containers bowl List.mem_cons_self)
    simp only [text?, Action.text?, hbowl]
    rfl
  | .act (.liquefy bowl) =>
    have hbowl := bowlText?_eq (h.containers bowl List.mem_cons_self)
    simp only [text?, Action.text?, hbowl]
    rfl
  | .act (.pour bowl dish) =>
    have hbowl := bowlText?_eq (h.containers bowl List.mem_cons_self)
    have hdish := dishText?_eq (h.containers dish (List.mem_cons_of_mem _ List.mem_cons_self))
    simp only [text?, Action.text?, hbowl, hdish]
    rfl
  | .act (.stir bowl minutes) =>
    have hbowl := bowlText?_eq (h.containers bowl List.mem_cons_self)
    simp only [text?, Action.text?, hbowl]
    rfl
  | .loopStart verb ingredient => rfl
  | .loopEnd verbed ingredient? => rfl

/-! ## three functions that subtract -/

/-- the number of a container from its ordinal -/
def containerNumber? : Option (List Char) → Option (Except ReadFault Nat)
  | none => some (.ok 0)
  | some ds =>
    if countOf ds = 0 then some (.error .ordinalZero) else (minus? (countOf ds) 1).map .ok

theorem containerNumber?_eq (ordinal : Option (List Char)) :
    containerNumber? ordinal = some (containerNumber ordinal) := by
  cases ordinal with
  | none => rfl
  | some ds =>
    by_cases hzero : countOf ds = 0
    · simp only [containerNumber?, containerNumber, if_pos hzero]
    · simp only [containerNumber?, containerNumber, if_neg hzero]
      rw [minus?_of_le (by omega)]
      rfl

/-- the past tenses of a verb in small letters, where a final `y` is cut off as one byte -/
def pastTenses? (verb : List Char) : Option (List (List Char)) :=
  match verb.getLast? with
  | none => some [verb ++ ['d'], verb ++ ['e', 'd']]
  | some last =>
    if last = 'y' then do
      let size ← minus? (String.ofList verb).utf8ByteSize 1
      let (stem, _) ← cutAt? (String.ofList verb) size
      some [verb ++ ['d'], verb ++ ['e', 'd'], verb ++ [last, 'e', 'd'],
        stem.toList ++ ['i', 'e', 'd']]
    else some [verb ++ ['d'], verb ++ ['e', 'd'], verb ++ [last, 'e', 'd']]

theorem pastTenses?_eq (verb : List Char) : pastTenses? verb = some (pastTenses verb) := by
  rcases List.eq_nil_or_concat verb with rfl | ⟨stem, last, rfl⟩
  · rfl
  · rw [List.concat_eq_append]
    have hlast : (stem ++ [last]).getLast? = some last := List.getLast?_concat
    simp only [pastTenses?, pastTenses, hlast, List.dropLast_concat]
    by_cases hy : last = 'y'
    · subst hy
      have htext : String.ofList (stem ++ ['y']) = String.ofList stem ++ "y" := String.ofList_append
      have hsize : (String.ofList stem ++ "y").utf8ByteSize =
          (String.ofList stem).utf8ByteSize + 1 :=
        String.utf8ByteSize_append
      rw [if_pos rfl, if_pos rfl, htext, hsize, minus?_of_le (Nat.le_add_left _ _)]
      dsimp only [Option.bind_eq_bind, Option.bind_some]
      rw [Nat.add_sub_cancel, cutAt?_append]
      dsimp only [Option.bind_some]
      rw [String.toList_ofList]
      rfl
    · rw [if_neg hy, if_neg hy]
      rfl

/-- take the top ingredient off and put it back at an index, counted from the bottom -/
def Container.stir? (c : Container) (minutes : Nat) : Option Container :=
  match c.contents.getLast? with
  | none => some c
  | some top => do
    let below := c.contents.dropLast
    let place ← minus? below.length (min minutes below.length)
    let stirred ← insertAt? below place top
    some (.ofContents stirred)

theorem Container.stir?_eq (c : Container) (minutes : Nat) :
    c.stir? minutes = some (c.stir minutes) := by
  obtain ⟨topDown⟩ := c
  cases topDown with
  | nil => rfl
  | cons top below =>
    have hcontents : (Container.mk (top :: below)).contents = below.reverse ++ [top] :=
      List.reverse_cons
    have hplace : below.length - (below.length - min minutes below.length) =
      min minutes below.length := by omega
    simp only [stir?, hcontents, List.getLast?_concat, List.dropLast_concat, List.length_reverse]
    rw [minus?_of_le (Nat.min_le_right _ _)]
    dsimp only [Option.bind_eq_bind, Option.bind_some]
    rw [insertAt?, if_pos (by rw [List.length_reverse]; exact Nat.sub_le _ _)]
    dsimp only [Option.bind_some]
    rw [List.drop_reverse, List.take_reverse, hplace]
    show some (Container.mk (List.reverse _)) = _
    rw [List.reverse_append, List.reverse_cons, List.reverse_reverse, List.reverse_reverse,
      List.append_assoc, List.singleton_append]
    rcases Nat.le_total minutes below.length with hfew | hmany
    · rw [Nat.min_eq_left hfew]
      rfl
    · rw [Nat.min_eq_right hmany, List.take_length, List.drop_length]
      show _ = some (Container.mk (below.take minutes ++ top :: below.drop minutes))
      rw [List.take_of_length_le hmany, List.drop_of_length_le hmany]

/-! ## loops as slices -/

/-- the ingredient that a loop end names -/
def Statement.until? : Statement → Option String
  | .loopEnd _ ingredient? => ingredient?
  | _ => none

/-- the index of the first statement behind `start` that closes the loops of a verb -/
def loopEndAt? (statements : List Statement) (start : Nat) (verb : String) : Option Nat :=
  ((statements.drop (start + 1)).findIdx? (·.closes verb)).map (start + 1 + ·)

theorem lt_of_loopEndAt? {statements : List Statement} {start stop : Nat} {verb : String}
    (h : loopEndAt? statements start verb = some stop) :
    start < stop ∧ stop < statements.length := by
  obtain ⟨n, hn, rfl⟩ := Option.map_eq_some_iff.mp h
  obtain ⟨hlt, _⟩ := List.findIdx?_eq_some_iff_getElem.mp hn
  rw [List.length_drop] at hlt
  omega

/-- the cut of a loop by the index of its end -/
theorem cutLoop?_eq (verb : String) (ss : List Statement) :
    cutLoop? verb ss = (ss.findIdx? (·.closes verb)).map fun n =>
      ⟨ss.take n, ss[n]?.bind Statement.until?, ss.drop (n + 1)⟩ := by
  induction ss with
  | nil => rfl
  | cons st ss ih =>
    rw [List.findIdx?_cons]
    cases hclose : st.closes verb with
    | true =>
      cases st with
      | loopEnd verbed ingredient? => exact if_pos hclose
      | act action => cases hclose
      | loopStart verb' ingredient => cases hclose
    | false =>
      rw [cutLoop?_cons_of_open hclose, ih, if_neg Bool.false_ne_true, Option.map_map,
        Option.map_map]
      rfl

/-- a statement at an index and those behind it -/
theorem drop_of_getElem? {statements : List Statement} {i : Nat} {st : Statement}
    (h : statements[i]? = some st) : statements.drop i = st :: statements.drop (i + 1) := by
  obtain ⟨hi, rfl⟩ := List.getElem?_eq_some_iff.mp h
  exact List.drop_eq_getElem_cons hi

theorem cutLoop?_drop_eq_none {statements : List Statement} {start : Nat} {verb : String}
    (h : loopEndAt? statements start verb = none) :
    cutLoop? verb (statements.drop (start + 1)) = none := by
  rw [cutLoop?_eq, Option.map_eq_none_iff.mp h]
  rfl

/-- the end of a loop is in the method, behind its start, and its body is the slice between them -/
theorem cutLoop?_drop {statements : List Statement} {start stop : Nat} {verb : String}
    (h : loopEndAt? statements start verb = some stop) :
    ∃ last body, statements[stop]? = some last ∧ slice? statements (start + 1) stop = some body ∧
      cutLoop? verb (statements.drop (start + 1)) =
        some ⟨body, last.until?, statements.drop (stop + 1)⟩ := by
  obtain ⟨hstart, hstop⟩ := lt_of_loopEndAt? h
  obtain ⟨n, hn, rfl⟩ := Option.map_eq_some_iff.mp h
  have hlast := List.getElem?_eq_getElem hstop
  refine ⟨_, _, hlast, if_pos ⟨by omega, by omega⟩, ?_⟩
  rw [cutLoop?_eq, hn, Option.map_some, List.take_drop, List.getElem?_drop, hlast, List.drop_drop]
  rfl

/-! ## checked programs -/

/-- a computation at the bench that may break off where something is out of range -/
abbrev Checked (α : Type) : Type := OptionT Cooking α

/-- go on with what a check gave -/
def checked {α : Type} (a? : Option α) : Checked α := OptionT.mk (pure a?)

theorem checked_some_bind {α β : Type} (a : α) (f : α → Checked β) :
    checked (some a) >>= f = f a := by
  rfl

def combineChecked (name : String) (n : Nat) : Checked Unit := do
  let named ← (fetch name : Cooking Ingredient)
  let factor ← (orFault (.combineValueless named.name) named.value : Cooking Quantity)
  (changeKitchen (·.useBowl n) : Cooking Unit)
  let b ← (get : Cooking Bench)
  match combined named factor n (b.kitchen.bowl n) with
  | .ok i => (changeKitchen (·.changeBowl n (·.push i)) : Cooking Unit)
  | .error fault =>
    let _ ← checked fault.message?
    (throw (.runtime fault) : Cooking Unit)

def Action.performChecked : Action → Checked Unit
  | .combine name n => combineChecked name n
  | .stir n minutes => do
    let b ← (get : Cooking Bench)
    let stirred ← checked ((b.kitchen.bowl n).stir? minutes)
    (changeKitchen (·.changeBowl n fun _ => stirred) : Cooking Unit)
  | a => (a.perform : Cooking Unit)

theorem CookFault.message?_of_combined {named : Ingredient} {factor : Quantity} {n : Nat}
    {bowl : Container} {fault : CookFault} (hn : n < countMax)
    (h : combined named factor n bowl = .error fault) : fault.message? = some fault.message := by
  rcases combined_eq_error h with rfl | ⟨top, _, _, rfl⟩ | rfl
  · rw [message?, plus?_one hn]
    rfl
  · rfl
  · rfl

theorem combineChecked_eq (name : String) {n : Nat} (hn : n < countMax) :
    combineChecked name n = liftM (combine name n) := by
  unfold combineChecked combine
  simp only [liftM_bind]
  congr 1
  funext named
  congr 1
  funext factor
  congr 1
  funext _
  congr 1
  funext b
  cases hc : combined named factor n (b.kitchen.bowl n) with
  | ok i => rfl
  | error fault =>
    dsimp only
    rw [CookFault.message?_of_combined hn hc, checked_some_bind]

theorem performChecked_eq {a : Action} (h : (Statement.act a).InRange) :
    a.performChecked = liftM a.perform := by
  cases a with
  | put name n => rfl
  | combine name n => exact combineChecked_eq name (h.containers n List.mem_cons_self)
  | liquefy n => rfl
  | pour bowl dish => rfl
  | stir n minutes =>
    simp only [Action.performChecked, Container.stir?_eq, checked_some_bind]
    rfl

/-- the passes of a loop with a counter that is compared with the limit and then raised -/
def passesChecked (limit : Nat) (verb ingredient counter : String) (body : Checked Unit)
    (made : Nat) : Checked Unit := do
  let value ← (loopValue ingredient : Cooking Quantity)
  if value.val = 0 then (emit (.loopFinished verb ingredient made) : Cooking Unit)
  else if hfull : limit ≤ made then (throw (.loopLimit verb limit) : Cooking Unit)
  else
    match hnext : plus? made 1 with
    | none => failure
    | some next =>
      (emit (.pass verb ingredient value next) : Cooking Unit)
      body
      (decrement counter : Cooking Unit)
      passesChecked limit verb ingredient counter body next
termination_by limit - made
decreasing_by
  unfold plus? at hnext
  split at hnext
  · obtain rfl := Option.some.inj hnext
    omega
  · cases hnext

/-- a method from an index on -/
def followChecked (limit : Nat) (statements : List Statement) (i : Nat) : Checked Unit :=
  match hst : statements[i]? with
  | none => return ()
  | some (.act action) => do
    let _ ← checked (Statement.text? (.act action))
    (emit (.resolve (.act action)) : Cooking Unit)
    action.performChecked
    followChecked limit statements (i + 1)
  | some (.loopStart verb ingredient) => do
    let _ ← checked (Statement.text? (.loopStart verb ingredient))
    (emit (.resolve (.loopStart verb ingredient)) : Cooking Unit)
    match hend : loopEndAt? statements i verb with
    | none => (throw (.runtime (.unclosedLoop verb)) : Cooking Unit)
    | some stop =>
      let last ← checked statements[stop]?
      match hbody : slice? statements (i + 1) stop with
      | none => failure
      | some body =>
        passesChecked limit verb ingredient (last.until?.getD ingredient)
          (followChecked limit body 0) 0
        followChecked limit statements (stop + 1)
  | some (.loopEnd verbed ingredient?) => do
    let _ ← checked (Statement.text? (.loopEnd verbed ingredient?))
    (emit (.resolve (.loopEnd verbed ingredient?)) : Cooking Unit)
    (throw (.runtime (.strayLoopEnd verbed)) : Cooking Unit)
termination_by (statements.length, statements.length - i)
decreasing_by
  · have hi := (List.getElem?_eq_some_iff.mp hst).1
    exact Prod.Lex.right _ (by omega)
  · have hi := (List.getElem?_eq_some_iff.mp hst).1
    have hlength := length_of_slice? hbody
    exact Prod.Lex.left _ _ (by omega)
  · have hi := (List.getElem?_eq_some_iff.mp hst).1
    have hstop := lt_of_loopEndAt? hend
    exact Prod.Lex.right _ (by omega)

theorem passesChecked_eq {limit : Nat} (hlimit : limit ≤ countMax)
    (verb ingredient counter : String) (body : Cooking Unit) (left : Nat) :
    ∀ made, made + left = limit →
      passesChecked limit verb ingredient counter (liftM body) made =
        liftM (passes verb ingredient counter body made left) := by
  induction left with
  | zero =>
    intro made hmade
    rw [passesChecked, passes, liftM_bind]
    congr 1
    funext value
    by_cases hzero : value.val = 0
    · rw [if_pos hzero, if_pos hzero]
    · rw [if_neg hzero, if_neg hzero, dif_pos (by omega), ← hmade]
      rfl
  | succ left ih =>
    intro made hmade
    rw [passesChecked, passes, liftM_bind]
    congr 1
    funext value
    by_cases hzero : value.val = 0
    · rw [if_pos hzero, if_pos hzero]
    · rw [if_neg hzero, if_neg hzero, dif_neg (by omega)]
      have hnext : plus? made 1 = some (made + 1) := plus?_one (by omega)
      split
      · rename_i hnone
        rw [hnext] at hnone
        cases hnone
      · rename_i next hsome
        rw [hnext] at hsome
        obtain rfl := Option.some.inj hsome
        rw [ih (made + 1) (by omega)]
        simp only [liftM_bind]

theorem followChecked_eq {limit : Nat} (hlimit : limit ≤ countMax) (statements : List Statement)
    (i : Nat) (hrange : ∀ st ∈ statements, st.InRange) :
    followChecked limit statements i = liftM (follow limit (statements.drop i)) := by
  fun_induction followChecked limit statements i with
  | case1 statements i hst =>
    rw [List.drop_eq_nil_of_le (List.getElem?_eq_none_iff.mp hst), follow_nil, liftM_pure]
  | case2 statements i action hst ih =>
    have hst' := hrange _ (List.mem_of_getElem? hst)
    rw [ih hrange, Statement.text?_eq hst', checked_some_bind, performChecked_eq hst',
      drop_of_getElem? hst, follow_act]
    simp only [liftM_bind]
  | case3 statements i verb ingredient hst ihbody ihrest =>
    rw [Statement.text?_eq (hrange _ (List.mem_of_getElem? hst)), checked_some_bind,
      drop_of_getElem? hst]
    split
    · rename_i hend
      rw [follow_unclosed (cutLoop?_drop_eq_none hend)]
      rfl
    · rename_i stop hend
      obtain ⟨last, body, hlast, hbody, hcut⟩ := cutLoop?_drop hend
      rw [follow_loopStart hcut, hlast, checked_some_bind, ihrest stop hend hrange]
      split
      · rename_i hnone
        rw [hbody] at hnone
        cases hnone
      · rename_i body' hsome
        obtain rfl := Option.some.inj (hbody.symm.trans hsome)
        have hbody' := ihbody stop body hbody fun st hst => hrange st (mem_of_slice? hbody hst)
        rw [hbody', List.drop_zero, passesChecked_eq hlimit _ _ _ _ limit 0 (Nat.zero_add limit)]
        simp only [liftM_bind]
  | case4 statements i verbed ingredient? hst =>
    rw [Statement.text?_eq (hrange _ (List.mem_of_getElem? hst)), checked_some_bind,
      drop_of_getElem? hst, follow_loopEnd]
    rfl

/-! ## errors that can be shown -/

theorem message?_of_effect {a : Action} {k k' : Kitchen} {p : Pantry} {e : Error}
    (ha : (Statement.act a).InRange) (h : a.effect k p = (.error e, k')) :
    e.message? = some e.message := by
  obtain ⟨name, _, ⟨_, _, rfl⟩ | ⟨n, i, rfl, _, ⟨_, _, rfl⟩ | ⟨_, fault, _, hc, _, rfl⟩⟩⟩ :=
    Action.effect_error h
  · rfl
  · rfl
  · rw [Error.message?, CookFault.message?_of_combined (ha.containers n List.mem_cons_self) hc]
    rfl

theorem message?_keptBySteps (limit : Nat) {ss : List Statement} (hss : ∀ st ∈ ss, st.InRange) :
    KeptBySteps limit (Task.Within ss (ss.flatMap Statement.counters)) (fun _ _ => True)
      (fun e => e.message? = some e.message) where
  goes_on ht _ step := ⟨step.within counters_subset ht, trivial⟩
  stops ht _ step := by
    refine ⟨?_, trivial⟩
    cases step with
    | failed effect => exact message?_of_effect (hss _ (ht List.mem_cons_self)) effect
    | unclosed found => rfl
    | stray => rfl
    | unchecked check =>
      rcases loopCheck_eq_error check with ⟨_, rfl⟩ | ⟨_, _, _, rfl⟩
      · rfl
      · rfl
    | usedUp check nonzero => rfl
    | uncounted count =>
      rcases countDown_eq_error count with ⟨_, rfl⟩ | ⟨_, _, _, rfl⟩ | rfl
      · rfl
      · rfl
      · rfl

theorem message?_of_runMethod {limit : Nat} {method : List Statement}
    (hrange : ∀ st ∈ method, st.InRange) {kitchen : Kitchen} {pantry : Pantry} {e : Error}
    (h : (runMethod limit method kitchen pantry).1 = .error e) : e.message? = some e.message :=
  error_of_runMethod (message?_keptBySteps limit hrange) (List.Subset.refl method) h

theorem message?_inContext {e : Error} (h : e.message? = some e.message) (context : String) :
    (Error.inContext e context).message? = some (Error.inContext e context).message := by
  rw [Error.message?, h]
  rfl

/-! ## recipes that were read -/

structure Preparation.InRange (p : Preparation) : Prop where
  method : ∀ st ∈ p.method, st.InRange
  oven : ∀ t ∈ p.oven, t < 0x100000000

theorem Preparation.Readable.inRange {p : Preparation} (h : p.Readable) : p.InRange where
  method st hst := (h.method st hst).inRange
  oven t ht := h.oven t ht

theorem inRange_of_parse {source : String} {r : Recipe} (h : Recipe.parse source = .ok r) :
    r.servings ≤ countMax ∧ ∀ key p, r.preparation? key = some p → p.InRange := by
  obtain ⟨d, hform, rfl⟩ := (recipe_parse_iff source r).mp h
  have hread := hform.readable (unbroken_textLines source)
  refine ⟨hread.servings, fun key p hp => ?_⟩
  rcases (Document.preparation?_recipe hread.titled key p).mp hp with ⟨haux, _⟩ | ⟨_, rfl⟩
  · exact (hread.auxiliaries p haux).1.inRange
  · exact hread.main.inRange

/-- carry out a method with everything checked -/
def runChecked (limit : Nat) (method : List Statement) (kitchen : Kitchen) (pantry : Pantry) :
    Except Error (Option Unit) × Bench :=
  (followChecked limit method 0).run.run.run ⟨kitchen, pantry, []⟩

theorem runChecked_eq {limit : Nat} (hlimit : limit ≤ countMax) {method : List Statement}
    (hrange : ∀ st ∈ method, st.InRange) (kitchen : Kitchen) (pantry : Pantry) :
    runChecked limit method kitchen pantry =
      ((runMethod limit method kitchen pantry).1.map some,
        (runMethod limit method kitchen pantry).2) := by
  unfold runChecked runMethod
  rw [followChecked_eq hlimit method 0 hrange, List.drop_zero]
  show (follow limit method >>= fun u => (pure (some u) : Cooking (Option Unit))).run.run _ = _
  rw [run_bind]
  rcases (follow limit method).run.run ⟨kitchen, pantry, []⟩ with ⟨_ | u, b⟩ <;> rfl

/-- what is read from a text and cooked with a limit stays in range -/
structure StaysInRange (source : String) (limit : Nat) : Prop where
  /-- after any number of lines, the reader of lines stands inside the text and before a character,
  and it sees the line that is next; there are no more lines than bytes before it -/
  lines : ∀ n, ∃ reader after, (LineReader.start source).skip? n = some reader ∧
    reader.text = String.ofList (unifyLineEnds source.toList) ∧
    reader.next? = some ((Cursor.advance^[n] (Cursor.start source)).peek, after) ∧
    reader.line ≤ reader.offset ∧ reader.offset ≤ reader.text.utf8ByteSize ∧
    String.Pos.Raw.IsValid reader.text ⟨reader.offset⟩
  /-- one can be taken away from an ordinal, and the number can be shown with one added -/
  ordinals : ∀ ordinal, containerNumber? ordinal = some (containerNumber ordinal) ∧
    ∀ n, containerNumber ordinal = .ok n → n + 1 ≤ countMax
  /-- a final `y` can be cut off as one byte -/
  verbs : ∀ verb : String, pastTenses? (lower verb.toList) = some (pastTenses (lower verb.toList))
  /-- the end of a loop is behind its start and in the method -/
  slices : ∀ statements start stop verb, loopEndAt? statements start verb = some stop →
    start + 1 ≤ stop ∧ stop < statements.length
  /-- the place at which a stirred ingredient is put back is not below zero -/
  stirring : ∀ (c : Container) minutes, c.stir? minutes = some (c.stir minutes)
  /-- errors of reading can be shown -/
  unread : ∀ e, Recipe.parse source = .error e → e.toError.message? = some e.toError.message
  /-- the numbers of a recipe are in range, and its statements can be shown -/
  recipe : ∀ r, Recipe.parse source = .ok r → r.servings ≤ countMax ∧
    ∀ key p, r.preparation? key = some p → p.InRange ∧
      ∀ st ∈ p.method, st.text? = some st.text
  /-- preparations can be carried out in any kitchen with everything checked: the statements and
  the faults that are shown, the slices of the loops, the counters of their passes, the stirring -/
  cooking : ∀ r, Recipe.parse source = .ok r → ∀ key p, r.preparation? key = some p → ∀ kitchen,
    runChecked limit p.method kitchen p.ingredients =
        ((runMethod limit p.method kitchen p.ingredients).1.map some,
          (runMethod limit p.method kitchen p.ingredients).2) ∧
      ∀ e, (p.run limit kitchen).result = .error e → e.message? = some e.message
  /-- errors of a run, of cooking and of serving, can be shown -/
  served : ∀ r, Recipe.parse source = .ok r → ∀ e, (r.run limit).result = .error e →
    e.message? = some e.message

theorem staysInRange (source : String) (limit : Nat) (hlimit : limit ≤ countMax) :
    StaysInRange source limit where
  lines n := by
    obtain ⟨reader, front, rest, hskip, htext, hshows⟩ := (LineReader.shows_start source).skip n
    obtain ⟨after, _, _, hnext, _⟩ := hshows.next
    exact ⟨reader, after, hskip, htext, hnext, hshows.few, hshows.isValid⟩
  ordinals ordinal := ⟨containerNumber?_eq ordinal, fun n hn => lt_of_containerNumber hn⟩
  verbs verb := pastTenses?_eq _
  slices _ _ _ _ h := lt_of_loopEndAt? h
  stirring c minutes := c.stir?_eq minutes
  unread e _ := rfl
  recipe r hr := by
    obtain ⟨hservings, hprep⟩ := inRange_of_parse hr
    refine ⟨hservings, fun key p hp => ⟨hprep key p hp, fun st hst => ?_⟩⟩
    exact Statement.text?_eq ((hprep key p hp).method st hst)
  cooking r hr key p hp kitchen := by
    have hrange := ((inRange_of_parse hr).2 key p hp).method
    refine ⟨runChecked_eq hlimit hrange kitchen p.ingredients, fun e he => ?_⟩
    rw [p.run_result] at he
    cases hrun : (runMethod limit p.method kitchen p.ingredients).1 with
    | ok u =>
      rw [hrun] at he
      cases he
    | error cause =>
      rw [hrun] at he
      cases he
      exact message?_inContext (message?_of_runMethod hrange hrun) _
  served r hr e he := by
    obtain ⟨main, hmain, _⟩ := exists_main_of_parse hr
    have hrange := ((inRange_of_parse hr).2 mainKey main hmain).method
    rcases Recipe.run_eq_error hmain he with ⟨cause, b, hrun, rfl⟩ | ⟨b, _, hserve⟩
    · exact message?_inContext (message?_of_runMethod hrange (congrArg Prod.fst hrun)) _
    · obtain ⟨name, fault, rfl⟩ := unrenderable_of_serve hserve
      rfl

/-- dough can be kneaded under the largest limit of all -/
theorem staysInRange_doughText :
    countMax ≤ countMax ∧ ∃ r, Recipe.parse doughText = .ok r ∧
      r.preparation? mainKey = some doughMain ∧ ∀ kitchen,
        runChecked countMax doughMain.method kitchen doughMain.ingredients =
          ((runMethod countMax doughMain.method kitchen doughMain.ingredients).1.map some,
            (runMethod countMax doughMain.method kitchen doughMain.ingredients).2) := by
  have hmain : (Document.recipe ⟨1, doughMain, []⟩).preparation? mainKey = some doughMain := rfl
  have hsafe := staysInRange doughText countMax (Nat.le_refl _)
  refine ⟨Nat.le_refl _, _, parse_doughText, hmain, fun kitchen => ?_⟩
  exact (hsafe.cooking _ parse_doughText mainKey doughMain hmain kitchen).1

end Cookery

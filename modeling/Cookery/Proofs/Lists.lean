/-!
# Lists: runs, and functions that may fail

A list is cut into a run and a rest by `takeWhile` and `dropWhile`.  Where the run is known to have
the property and the rest not to start with it, the cut gives the two back.

* `takeWhile_run`, `dropWhile_run`   the cut of a run and its rest, and `run_inj`, the only one;
* `of_mem_takeWhile`, `not_of_mem_head_dropWhile`   the two parts of any cut;
* `of_mem_splitOn`    what the pieces between separators hold;
* `exists_ok_of_isOk`, `exists_error_of_isOk`   what a result is, from a test of it;
* `mapM_eq_ok_iff`, `exists_of_mapM_eq_error`   a function that may fail, along a list.
-/

namespace Cookery

/-! ## runs -/

section
variable {α : Type} {p : α → Bool} {a r : List α}

theorem forall_mem_head_cons (P : α → Prop) {x : α} (h : P x) (r : List α) :
    ∀ y ∈ (x :: r).head?, P y := by
  intro y hy
  obtain rfl : x = y := Option.some.inj hy
  exact h

theorem takeWhile_run (ha : ∀ x ∈ a, p x = true) (hr : ∀ x ∈ r.head?, p x = false) :
    (a ++ r).takeWhile p = a := by
  rw [List.takeWhile_append_of_pos ha]
  cases r with
  | nil => simp
  | cons x r =>
    have hx : p x = false := hr x rfl
    rw [List.takeWhile_cons, hx]
    simp

theorem dropWhile_run (ha : ∀ x ∈ a, p x = true) (hr : ∀ x ∈ r.head?, p x = false) :
    (a ++ r).dropWhile p = r := by
  rw [List.dropWhile_append_of_pos ha]
  cases r with
  | nil => rfl
  | cons x r =>
    have hx : p x = false := hr x rfl
    rw [List.dropWhile_cons, hx]
    rfl

/-- a list has one cut only into a run and a rest -/
theorem run_inj {P : α → Prop} {b s : List α} (h : a ++ r = b ++ s) (ha : ∀ x ∈ a, P x)
    (hr : ∀ x ∈ r.head?, ¬ P x) (hb : ∀ x ∈ b, P x) (hs : ∀ x ∈ s.head?, ¬ P x) :
    a = b ∧ r = s := by
  have : DecidablePred P := fun x => Classical.propDecidable (P x)
  have hcut : ∀ c t : List α, (∀ x ∈ c, P x) → (∀ x ∈ t.head?, ¬ P x) →
      (c ++ t).takeWhile (decide <| P ·) = c := fun c t hc ht =>
    takeWhile_run (fun x hx => decide_eq_true (hc x hx)) fun x hx => decide_eq_false (ht x hx)
  have hab : a = b := by rw [← hcut a r ha hr, h, hcut b s hb hs]
  subst hab
  exact ⟨rfl, List.append_cancel_left h⟩

theorem of_mem_takeWhile {x : α} (h : x ∈ a.takeWhile p) : p x = true :=
  List.all_eq_true.mp List.all_takeWhile x h

theorem not_of_mem_head_dropWhile {x : α} (h : x ∈ (a.dropWhile p).head?) : p x = false := by
  have hx := List.head?_dropWhile_not p a
  rw [h] at hx
  exact hx

end

/-! ## pieces -/

/-- the members of a piece are members of the list, other than the separator -/
theorem of_mem_splitOn {α : Type} [DecidableEq α] {a : α} {xs l : List α} (h : l ∈ xs.splitOn a) :
    ∀ c ∈ l, c ≠ a ∧ c ∈ xs := by
  induction xs generalizing l with
  | nil =>
    obtain rfl := List.mem_singleton.mp h
    exact List.forall_mem_nil _
  | cons x xs ih =>
    intro c hc
    rw [List.splitOn_cons_eq_if_modifyHead] at h
    split at h
    · rcases List.mem_cons.mp h with rfl | h
      · cases hc
      · have hrest := ih h c hc
        exact ⟨hrest.1, List.mem_cons_of_mem _ hrest.2⟩
    · rename_i hx
      cases hs : xs.splitOn a with
      | nil => exact absurd hs (List.splitOn_ne_nil a xs)
      | cons k ks =>
        rw [hs, List.modifyHead_cons] at h
        rw [hs] at ih
        rcases List.mem_cons.mp h with rfl | h
        · rcases List.mem_cons.mp hc with rfl | hc
          · exact ⟨fun he => hx (beq_iff_eq.mpr he), List.mem_cons_self⟩
          · have hrest := ih List.mem_cons_self c hc
            exact ⟨hrest.1, List.mem_cons_of_mem _ hrest.2⟩
        · have hrest := ih (List.mem_cons_of_mem _ h) c hc
          exact ⟨hrest.1, List.mem_cons_of_mem _ hrest.2⟩

/-! ## functions that may fail -/

section
variable {α β ε : Type} {f : α → Except ε β}

theorem bind_eq_ok {x : Except ε α} {y : β} (h : (x >>= f) = .ok y) :
    ∃ a, x = .ok a ∧ f a = .ok y := by
  cases x with
  | error e => cases h
  | ok a => exact ⟨a, rfl, h⟩

theorem exists_ok_of_isOk {x : Except ε α} (h : x.isOk = true) : ∃ a, x = .ok a := by
  cases x with
  | error e => cases h
  | ok a => exact ⟨a, rfl⟩

theorem exists_error_of_isOk {x : Except ε α} (h : x.isOk = false) : ∃ e, x = .error e := by
  cases x with
  | error e => exact ⟨e, rfl⟩
  | ok a => cases h

theorem eq_error_of_map {g : α → β} {x : Except ε α} {e : ε} (h : x.map g = .error e) :
    x = .error e := by
  cases x with
  | error e' =>
    cases h
    rfl
  | ok a => cases h

theorem mapM_cons_ok {x : α} {y : β} (h : f x = .ok y) (l : List α) :
    (x :: l).mapM f = (l.mapM f).map (y :: ·) := by
  rw [List.mapM_cons, h]
  show (l.mapM f >>= fun ys => pure (y :: ys)) = _
  cases l.mapM f <;> rfl

theorem mapM_cons_error {x : α} {e : ε} (h : f x = .error e) (l : List α) :
    (x :: l).mapM f = .error e := by
  rw [List.mapM_cons, h]
  rfl

theorem mapM_eq_ok_iff {l : List α} {ys : List β} :
    l.mapM f = .ok ys ↔ l.map f = ys.map .ok := by
  induction l generalizing ys with
  | nil =>
    rw [List.mapM_nil, List.map_nil]
    constructor
    · intro h
      obtain rfl : [] = ys := Except.ok.inj h
      rfl
    · intro h
      obtain rfl := List.map_eq_nil_iff.mp h.symm
      rfl
  | cons x l ih =>
    cases hx : f x with
    | error e =>
      rw [mapM_cons_error hx, List.map_cons, hx]
      refine ⟨nofun, fun h => ?_⟩
      cases ys with
      | nil => cases h
      | cons y ys => cases (List.cons.inj h).1
    | ok y =>
      rw [mapM_cons_ok hx, List.map_cons, hx]
      constructor
      · intro h
        cases hl : l.mapM f with
        | error e => rw [hl] at h; cases h
        | ok zs =>
          rw [hl] at h
          obtain rfl : y :: zs = ys := Except.ok.inj h
          rw [List.map_cons, ih.mp hl]
      · intro h
        cases ys with
        | nil => cases h
        | cons z ys =>
          obtain ⟨hz, hys⟩ := List.cons.inj h
          cases hz
          rw [ih.mpr hys]
          rfl

theorem exists_of_mapM_eq_error {l : List α} {e : ε} (h : l.mapM f = .error e) :
    ∃ x ∈ l, f x = .error e := by
  induction l with
  | nil => cases h
  | cons x l ih =>
    cases hx : f x with
    | error e' =>
      rw [mapM_cons_error hx] at h
      cases h
      exact ⟨x, List.mem_cons_self, hx⟩
    | ok y =>
      rw [mapM_cons_ok hx] at h
      cases hl : l.mapM f with
      | error e' =>
        rw [hl] at h
        cases h
        obtain ⟨z, hz, he⟩ := ih hl
        exact ⟨z, List.mem_cons_of_mem _ hz, he⟩
      | ok zs =>
        rw [hl] at h
        cases h

end

end Cookery

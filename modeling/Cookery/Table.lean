/-!
# Tables: values stored under keys, in ascending order of the keys

One table holds the ingredients of a recipe by name, one its functions by title, one the
containers of a kitchen by number.  The entries ascend strictly, so a key occurs once, and two
tables with the same entries are the same table.

* `Table κ α`         the entries with their order;
* `find?`, `insert`, `modify`   look up, store (in place of an older value), change what is there;
* `find?_insert`, `find?_modify`   what a look-up gives afterwards.
-/

set_option linter.unusedSectionVars false

namespace Cookery

structure Table (κ α : Type) [Ord κ] where
  entries : List (κ × α)
  ascending : entries.Pairwise fun a b => compare a.1 b.1 = .lt
deriving DecidableEq

namespace Table

variable {κ α : Type} [Ord κ]

def empty : Table κ α := ⟨[], .nil⟩

instance : EmptyCollection (Table κ α) := ⟨empty⟩
instance : Inhabited (Table κ α) := ⟨empty⟩

def keys (t : Table κ α) : List κ := t.entries.map Prod.fst

/-- the value stored under a key -/
def find? (t : Table κ α) (k : κ) : Option α :=
  (t.entries.find? fun e => compare k e.1 == .eq).map Prod.snd

def contains (t : Table κ α) (k : κ) : Bool := (t.find? k).isSome

/-! ## storing -/

/-- put an entry at its place, in place of an entry with the same key -/
def place (k : κ) (a : α) : List (κ × α) → List (κ × α)
  | [] => [(k, a)]
  | e :: es =>
    match compare k e.1 with
    | .lt => (k, a) :: e :: es
    | .eq => (k, a) :: es
    | .gt => e :: place k a es

theorem mem_place {k : κ} {a : α} {es : List (κ × α)} {x : κ × α} (h : x ∈ place k a es) :
    x = (k, a) ∨ x ∈ es := by
  induction es with
  | nil => simpa [place] using h
  | cons e es ih =>
    rw [place] at h
    split at h
    · simpa using h
    · rcases List.mem_cons.1 h with h | h
      · exact .inl h
      · exact .inr (List.mem_cons_of_mem _ h)
    · rcases List.mem_cons.1 h with h | h
      · exact .inr (h ▸ List.mem_cons_self)
      · exact (ih h).imp_right (List.mem_cons_of_mem _)

section lawful
variable [Std.TransOrd κ] [Std.LawfulEqOrd κ]

theorem place_ascending (k : κ) (a : α) (es : List (κ × α))
    (h : es.Pairwise fun a b => compare a.1 b.1 = .lt) :
    (place k a es).Pairwise fun a b => compare a.1 b.1 = .lt := by
  induction es with
  | nil => simp [place]
  | cons e es ih =>
    obtain ⟨he, hes⟩ := List.pairwise_cons.1 h
    rw [place]
    split
    · rename_i hk
      refine List.pairwise_cons.2 ⟨fun x hx => ?_, h⟩
      rcases List.mem_cons.1 hx with rfl | hx
      · exact hk
      · exact Std.TransCmp.lt_trans hk (he x hx)
    · rename_i hk
      obtain rfl := Std.LawfulEqOrd.eq_of_compare hk
      exact List.pairwise_cons.2 ⟨he, hes⟩
    · rename_i hk
      refine List.pairwise_cons.2 ⟨fun x hx => ?_, ih hes⟩
      rcases mem_place hx with rfl | hx
      · exact Std.OrientedCmp.gt_iff_lt.1 hk
      · exact he x hx

/-- store a value under a key -/
def insert (t : Table κ α) (k : κ) (a : α) : Table κ α :=
  ⟨place k a t.entries, place_ascending k a t.entries t.ascending⟩

end lawful

/-! ## changing -/

/-- change the value under a key, if there is one -/
def modify (t : Table κ α) (k : κ) (f : α → α) : Table κ α :=
  ⟨t.entries.map fun e => (e.1, if compare k e.1 = .eq then f e.2 else e.2),
    List.pairwise_map.2 t.ascending⟩

/-- a table with the given entries, where the last one under a key counts -/
def ofList [Std.TransOrd κ] [Std.LawfulEqOrd κ] (es : List (κ × α)) : Table κ α :=
  es.foldl (fun t e => t.insert e.1 e.2) empty

/-! ## looking up -/

@[simp] theorem find?_empty (k : κ) : (empty : Table κ α).find? k = none := rfl

@[simp] theorem keys_modify (t : Table κ α) (k : κ) (f : α → α) :
    (t.modify k f).keys = t.keys := by
  simp [keys, modify, Function.comp_def]

section lawful
variable [Std.TransOrd κ] [Std.LawfulEqOrd κ]

theorem find?_place_self (k : κ) (a : α) (es : List (κ × α)) :
    (place k a es).find? (fun e => compare k e.1 == .eq) = some (k, a) := by
  induction es with
  | nil => simp [place]
  | cons e es ih =>
    rw [place]
    split
    · simp
    · simp
    · rename_i hk
      simp [hk, ih]

theorem find?_place_of_ne {k k' : κ} (h : k' ≠ k) (a : α) (es : List (κ × α)) :
    (place k a es).find? (fun e => compare k' e.1 == .eq)
      = es.find? (fun e => compare k' e.1 == .eq) := by
  have hk' : (compare k' k == .eq) = false := by
    simpa using h
  induction es with
  | nil => simp [place, hk']
  | cons e es ih =>
    rw [place]
    split
    · rw [List.find?_cons, hk']
    · rename_i hk
      obtain rfl := Std.LawfulEqOrd.eq_of_compare hk
      simp [hk']
    · rw [List.find?_cons, List.find?_cons, ih]

/-- a look-up after a store gives the new value under its key and the old values elsewhere -/
theorem find?_insert [DecidableEq κ] (t : Table κ α) (k k' : κ) (a : α) :
    (t.insert k a).find? k' = if k' = k then some a else t.find? k' := by
  by_cases h : k' = k
  · subst h
    simp [find?, insert, find?_place_self]
  · simp [find?, insert, find?_place_of_ne h, h]

/-- a look-up after a change gives the changed value under its key and the old values elsewhere -/
theorem find?_modify [DecidableEq κ] (t : Table κ α) (k k' : κ) (f : α → α) :
    (t.modify k f).find? k' = if k' = k then (t.find? k').map f else t.find? k' := by
  simp only [find?, modify]
  induction t.entries with
  | nil => simp
  | cons e es ih =>
    rw [List.map_cons, List.find?_cons, List.find?_cons]
    by_cases he : k' = e.1
    · subst he
      by_cases h : e.1 = k
      · simp [h]
      · simp [h, Ne.symm h]
    · have hb : (compare k' e.1 == .eq) = false := by simpa using he
      simp only [hb]
      exact ih

end lawful

end Table

end Cookery

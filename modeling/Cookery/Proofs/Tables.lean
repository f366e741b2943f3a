import Cookery.Table

/-!
# Tables by what is found in them

* `Table.mem_entries_iff`   the entries are what a look-up finds;
* `Table.ext_find?`         tables with the same look-ups are the same table;
* `Table.storeBy`           values stored one after the other, each under a key of its own;
* `Table.storeBy_perm`      their order does not matter;
* `Table.find?_ofList_eq_some_iff`   a table from entries with keys that differ;
* `Table.storeBy_values`    a table is its own values stored again.
-/

set_option linter.unusedSectionVars false

namespace Cookery
namespace Table

variable {κ α : Type} [Ord κ] [Std.TransOrd κ] [Std.LawfulEqOrd κ]

/-! ## entries -/

theorem keys_ne (t : Table κ α) : t.entries.Pairwise fun a b => a.1 ≠ b.1 := by
  refine t.ascending.imp fun {a b} h he => ?_
  rw [he, Std.ReflOrd.compare_self] at h
  cases h

theorem entries_nodup (t : Table κ α) : t.entries.Nodup :=
  t.keys_ne.imp fun h he => h (congrArg Prod.fst he)

theorem mem_entries_iff (t : Table κ α) (k : κ) (a : α) :
    (k, a) ∈ t.entries ↔ t.find? k = some a := by
  have hne := t.keys_ne
  unfold find?
  generalize t.entries = es at hne
  induction es with
  | nil => exact ⟨nofun, nofun⟩
  | cons e es ih =>
    obtain ⟨he, hes⟩ := List.pairwise_cons.mp hne
    rw [List.mem_cons, List.find?_cons]
    by_cases hk : k = e.1
    · have hb : (compare k e.1 == .eq) = true := by simpa using hk
      rw [hb]
      constructor
      · rintro (rfl | hmem)
        · rfl
        · exact absurd hk.symm (he _ hmem)
      · intro h
        obtain rfl : e.2 = a := Option.some.inj h
        exact .inl (Prod.ext hk rfl)
    · have hb : (compare k e.1 == .eq) = false := by simpa using hk
      rw [hb]
      refine Iff.trans (or_iff_right fun h => hk ?_) (ih hes)
      rw [← h]

theorem ext_find? {t u : Table κ α} (h : ∀ k, t.find? k = u.find? k) : t = u := by
  have hmem : ∀ e, e ∈ t.entries ↔ e ∈ u.entries := by
    intro ⟨k, a⟩
    rw [mem_entries_iff, mem_entries_iff, h]
  have hperm := (List.perm_ext_iff_of_nodup t.entries_nodup u.entries_nodup).mpr hmem
  -- two ascending lists with the same members are the same list
  have heq : t.entries = u.entries := by
    refine hperm.eq_of_pairwise (fun a b _ _ hab hba => ?_) t.ascending u.ascending
    have hlt := Std.TransCmp.lt_trans hab hba
    rw [Std.ReflOrd.compare_self] at hlt
    cases hlt
  cases t
  cases u
  cases heq
  rfl

/-! ## storing many values -/

variable [DecidableEq κ]

theorem contains_insert (t : Table κ α) (k k' : κ) (a : α) :
    (t.insert k a).contains k' = (decide (k' = k) || t.contains k') := by
  unfold contains
  rw [find?_insert]
  by_cases h : k' = k
  · rw [if_pos h, decide_eq_true h]
    rfl
  · rw [if_neg h, decide_eq_false h, Bool.false_or]

def storeBy (key : α → κ) (t : Table κ α) (as : List α) : Table κ α :=
  as.foldl (fun t a => t.insert (key a) a) t

variable {key : α → κ} {as bs : List α}

theorem find?_storeBy_of_not_mem {k : κ} (h : k ∉ as.map key) (t : Table κ α) :
    (storeBy key t as).find? k = t.find? k := by
  induction as generalizing t with
  | nil => rfl
  | cons a as ih =>
    rw [List.map_cons, List.mem_cons, not_or] at h
    have hrest := ih h.2 (t.insert (key a) a)
    rw [find?_insert, if_neg h.1] at hrest
    exact hrest

theorem find?_storeBy_of_mem (hnodup : (as.map key).Nodup) {a : α} (h : a ∈ as) (t : Table κ α) :
    (storeBy key t as).find? (key a) = some a := by
  induction as generalizing t with
  | nil => cases h
  | cons b as ih =>
    rw [List.map_cons, List.nodup_cons] at hnodup
    rcases List.mem_cons.mp h with rfl | h
    · have hfirst := find?_storeBy_of_not_mem hnodup.1 (t.insert (key a) a)
      rw [find?_insert, if_pos rfl] at hfirst
      exact hfirst
    · exact ih hnodup.2 h (t.insert (key b) b)

/-- what is found is one of the values, or was there before them -/
theorem find?_storeBy_eq_some_iff (hnodup : (as.map key).Nodup) (t : Table κ α) (k : κ) (b : α) :
    (storeBy key t as).find? k = some b ↔
      (b ∈ as ∧ key b = k) ∨ (k ∉ as.map key ∧ t.find? k = some b) := by
  by_cases hk : k ∈ as.map key
  · obtain ⟨a, ha, rfl⟩ := List.mem_map.mp hk
    rw [find?_storeBy_of_mem hnodup ha, Option.some.injEq]
    constructor
    · rintro rfl
      exact .inl ⟨ha, rfl⟩
    · rintro (⟨hb, hkey⟩ | ⟨hnot, _⟩)
      · have hfind := find?_storeBy_of_mem hnodup hb t
        rw [hkey, find?_storeBy_of_mem hnodup ha] at hfind
        exact Option.some.inj hfind
      · exact absurd hk hnot
  · rw [find?_storeBy_of_not_mem hk]
    constructor
    · intro h
      exact .inr ⟨hk, h⟩
    · rintro (⟨hb, rfl⟩ | ⟨_, h⟩)
      · exact absurd (List.mem_map_of_mem hb) hk
      · exact h

theorem storeBy_perm (h : as.Perm bs) (hnodup : (as.map key).Nodup) (t : Table κ α) :
    storeBy key t as = storeBy key t bs := by
  have hkeys := h.map key
  refine ext_find? fun k => Option.ext fun b => ?_
  rw [find?_storeBy_eq_some_iff hnodup, find?_storeBy_eq_some_iff (hkeys.nodup_iff.mp hnodup),
    h.mem_iff, hkeys.mem_iff]

/-! ## a table from its entries -/

/-- entries stored one after the other: what is found is one of them, or was there before -/
theorem find?_foldl_insert_eq_some_iff {es : List (κ × α)} (hkeys : (es.map Prod.fst).Nodup)
    (t : Table κ α) (k : κ) (a : α) :
    (es.foldl (fun t e => t.insert e.1 e.2) t).find? k = some a ↔
      (k, a) ∈ es ∨ (k ∉ es.map Prod.fst ∧ t.find? k = some a) := by
  induction es generalizing t with
  | nil => simp
  | cons e es ih =>
    obtain ⟨k', a'⟩ := e
    rw [List.map_cons, List.nodup_cons] at hkeys
    rw [List.foldl_cons, ih hkeys.2, find?_insert, List.mem_cons, List.map_cons, List.mem_cons]
    by_cases hk : k = k'
    · subst hk
      have hnot : ∀ b, (k, b) ∉ es := fun b hb => hkeys.1 (List.mem_map.mpr ⟨_, hb, rfl⟩)
      have hnew : k ∉ es.map Prod.fst := hkeys.1
      simp [hnot, hnew, eq_comm]
    · simp [hk]

theorem find?_ofList_eq_some_iff {es : List (κ × α)} (hkeys : (es.map Prod.fst).Nodup) (k : κ)
    (a : α) : (ofList es).find? k = some a ↔ (k, a) ∈ es := by
  unfold ofList
  rw [find?_foldl_insert_eq_some_iff hkeys]
  simp

/-! ## the values of a table -/

def values (t : Table κ α) : List α := t.entries.map Prod.snd

theorem mem_values_iff (t : Table κ α) (a : α) : a ∈ t.values ↔ ∃ k, t.find? k = some a := by
  unfold values
  rw [List.mem_map]
  constructor
  · intro ⟨⟨k, b⟩, hmem, hb⟩
    obtain rfl : b = a := hb
    exact ⟨k, (t.mem_entries_iff k b).mp hmem⟩
  · intro ⟨k, hfind⟩
    exact ⟨(k, a), (t.mem_entries_iff k a).mpr hfind, rfl⟩

/-- values that know their keys have keys that differ -/
theorem nodup_map_values {t : Table κ α} (h : ∀ k a, t.find? k = some a → key a = k) :
    (t.values.map key).Nodup := by
  have hkeys : t.values.map key = t.entries.map Prod.fst := by
    unfold values
    rw [List.map_map]
    refine List.map_congr_left fun e he => ?_
    exact h e.1 e.2 ((t.mem_entries_iff _ _).mp he)
  rw [hkeys]
  exact List.pairwise_map.mpr t.keys_ne

theorem storeBy_values {t : Table κ α} (h : ∀ k a, t.find? k = some a → key a = k) :
    storeBy key empty t.values = t := by
  refine ext_find? fun k => Option.ext fun b => ?_
  rw [find?_storeBy_eq_some_iff (nodup_map_values h), mem_values_iff]
  constructor
  · rintro (⟨⟨k', hb⟩, rfl⟩ | ⟨_, hb⟩)
    · rw [h k' b hb]
      exact hb
    · cases hb
  · intro hb
    exact .inl ⟨⟨k, hb⟩, h k b hb⟩

end Table
end Cookery

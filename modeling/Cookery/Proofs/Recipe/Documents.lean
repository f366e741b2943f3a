import Cookery.Proofs.Tables
import Cookery.Recipe.Basic

/-!
# Documents and the recipes they write down

A document gives the auxiliary preparations in an order, a recipe has them in a table.  With titles
that differ from each other and from `mainKey`, the two hold the same preparations.

* `Document.Titled`              the titles differ;
* `Document.main?_recipe`        the main preparation of the recipe is that of the document;
* `Recipe.auxiliaries`           the other preparations of a recipe;
* `Document.auxiliaries_recipe`  they are those of the document, in some order;
* `Document.recipe_congr`        the order makes no difference to the recipe.
-/

namespace Cookery

/-- no two preparations have one key -/
def Document.Titled (d : Document) : Prop := (mainKey :: d.auxiliaries.map Preparation.title).Nodup

/-- the preparations of a recipe besides the main one -/
def Recipe.auxiliaries (r : Recipe) : List Preparation :=
  (r.preparations.entries.filter fun e => e.1 ≠ mainKey).map Prod.snd

namespace Document

variable {d : Document}

theorem Titled.auxiliaries (h : d.Titled) : (d.auxiliaries.map Preparation.title).Nodup :=
  (List.nodup_cons.mp h).2

theorem Titled.main (h : d.Titled) : mainKey ∉ d.auxiliaries.map Preparation.title :=
  (List.nodup_cons.mp h).1

/-- all the preparations of the recipe: the main one under its key, the others under their titles -/
theorem preparation?_recipe (h : d.Titled) (key : String) (p : Preparation) :
    d.recipe.preparation? key = some p ↔
      (p ∈ d.auxiliaries ∧ p.title = key) ∨ (key = mainKey ∧ p = d.main) := by
  show (Table.storeBy Preparation.title (Table.empty.insert mainKey d.main)
    d.auxiliaries).find? key = some p ↔ _
  rw [Table.find?_storeBy_eq_some_iff h.auxiliaries, Table.find?_insert]
  refine or_congr_right ?_
  by_cases hk : key = mainKey
  · subst hk
    rw [if_pos rfl, Option.some.injEq]
    exact ⟨fun hp => ⟨rfl, hp.2.symm⟩, fun hp => ⟨h.main, hp.2.symm⟩⟩
  · rw [if_neg hk]
    exact ⟨fun hp => (nomatch hp.2), fun hp => absurd hp.1 hk⟩

theorem main?_recipe (h : d.Titled) : d.recipe.main? = some d.main :=
  (preparation?_recipe h mainKey d.main).mpr (.inr ⟨rfl, rfl⟩)

theorem mem_auxiliaries_recipe (h : d.Titled) (p : Preparation) :
    p ∈ d.recipe.auxiliaries ↔ p ∈ d.auxiliaries := by
  unfold Recipe.auxiliaries
  rw [List.mem_map]
  constructor
  · intro ⟨⟨key, q⟩, hmem, hq⟩
    obtain rfl : q = p := hq
    obtain ⟨hentry, hkey⟩ := List.mem_filter.mp hmem
    have hfind := (Table.mem_entries_iff _ key q).mp hentry
    rcases (preparation?_recipe h key q).mp hfind with ⟨hp, _⟩ | ⟨rfl, _⟩
    · exact hp
    · exact absurd rfl (of_decide_eq_true hkey)
  · intro hp
    have hfind := (preparation?_recipe h p.title p).mpr (.inl ⟨hp, rfl⟩)
    have hkey : p.title ≠ mainKey := fun he => h.main (he ▸ List.mem_map_of_mem hp)
    refine ⟨(p.title, p), List.mem_filter.mpr ⟨?_, decide_eq_true hkey⟩, rfl⟩
    exact (Table.mem_entries_iff _ p.title p).mpr hfind

/-- the keys of the auxiliary preparations are their titles, so no preparation occurs twice -/
theorem nodup_auxiliaries_recipe (h : d.Titled) : d.recipe.auxiliaries.Nodup := by
  unfold Recipe.auxiliaries
  have hkeys := (Table.keys_ne d.recipe.preparations).filter fun e => e.1 ≠ mainKey
  refine List.pairwise_map.mpr (hkeys.imp_of_mem fun {a b} ha hb hne he => hne ?_)
  have htitle : ∀ e ∈ d.recipe.preparations.entries.filter (fun e => e.1 ≠ mainKey),
      e.2.title = e.1 := by
    intro e hmem
    obtain ⟨hentry, hkey⟩ := List.mem_filter.mp hmem
    have hfind := (Table.mem_entries_iff _ e.1 e.2).mp hentry
    rcases (preparation?_recipe h e.1 e.2).mp hfind with ⟨_, ht⟩ | ⟨hm, _⟩
    · exact ht
    · exact absurd hm (of_decide_eq_true hkey)
  rw [← htitle a ha, ← htitle b hb, he]

theorem auxiliaries_recipe (h : d.Titled) : d.recipe.auxiliaries.Perm d.auxiliaries := by
  have hnodup : d.auxiliaries.Nodup :=
    List.Pairwise.of_map Preparation.title (fun _ _ hne he => hne (he ▸ rfl)) h.auxiliaries
  exact (List.perm_ext_iff_of_nodup (nodup_auxiliaries_recipe h) hnodup).mpr
    (mem_auxiliaries_recipe h)

theorem recipe_congr (h : d.Titled) {auxiliaries : List Preparation}
    (hperm : auxiliaries.Perm d.auxiliaries) :
    Document.recipe { d with auxiliaries } = d.recipe := by
  have hnodup : (auxiliaries.map Preparation.title).Nodup :=
    (hperm.map Preparation.title).nodup_iff.mpr h.auxiliaries
  have hstore := Table.storeBy_perm hperm hnodup (Table.empty.insert mainKey d.main)
  unfold Document.recipe
  exact congrArg (Recipe.mk d.main.title d.servings) hstore

end Document

end Cookery

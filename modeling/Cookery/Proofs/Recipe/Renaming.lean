import Cookery.Proofs.Cooking.Lockstep
import Cookery.Proofs.Cooking.Progress
import Cookery.Proofs.Kitchen.Growth
import Cookery.Proofs.Kitchen.Renaming

/-!
# Recipes under other names and numbers

The ingredients of a main preparation get other names, its bowls and dishes other numbers, and the
recipe another count of servings.  If names and bowls stay apart, if the dishes stay in their order
and if those that were served are those that are served, then the recipe cooks the same text, or it
fails in the same way.

* `Statement.renamed`, `Preparation.renamed`, `Recipe.renamed`   the copy;
* `Renaming.Fits`            a renaming keeps apart and in order what a preparation uses;
* `Renaming.Relates`         a bench and the bench of the copy;
* `effect_renamed`, `loopCheck_renamed`, `countDown_renamed`   the single steps of both;
* `Renaming.simulation`      the copy goes along with the preparation;
* `ErrorKind`, `run_renamed` both recipes are run.
-/

namespace Cookery

/-! ## copies -/

section
variable (ρ : Renaming)

def Action.renamed : Action → Action
  | .put name bowl => .put (ρ.name name) (ρ.bowl bowl)
  | .combine name bowl => .combine (ρ.name name) (ρ.bowl bowl)
  | .liquefy bowl => .liquefy (ρ.bowl bowl)
  | .pour bowl dish => .pour (ρ.bowl bowl) (ρ.dish dish)
  | .stir bowl minutes => .stir (ρ.bowl bowl) minutes

def Statement.renamed : Statement → Statement := Statement.map (Action.renamed ρ) ρ.name

def Pantry.renamed (p : Pantry) : Pantry :=
  Table.ofList (p.entries.map fun e => (ρ.name e.1, e.2.renamed ρ))

def Preparation.renamed (p : Preparation) : Preparation :=
  { p with
    ingredients := Pantry.renamed ρ p.ingredients
    method := p.method.map (Statement.renamed ρ) }

/-- the recipe with its main preparation renamed and with another count of servings -/
def Recipe.renamed (servings : Nat) (r : Recipe) : Recipe :=
  { r with
    servings := servings
    preparations := r.preparations.modify mainKey (Preparation.renamed ρ) }

end

/-! ## what a preparation uses -/

namespace Preparation

/-- the names in the table and in the statements -/
def names (p : Preparation) : List String := p.ingredients.keys ++ p.method.flatMap Statement.names

def actions (p : Preparation) : List Action :=
  p.method.filterMap fun
    | .act a => some a
    | _ => none

def bowls (p : Preparation) : List Nat := p.actions.map Action.bowl

def dishes (p : Preparation) : List Nat := p.actions.filterMap Action.dish?

end Preparation

/-- different names and different bowls stay different, and the dishes stay in their order -/
structure Renaming.Fits (ρ : Renaming) (p : Preparation) : Prop where
  names : Set.InjOn ρ.name {name | name ∈ p.names}
  bowls : Set.InjOn ρ.bowl {n | n ∈ p.bowls}
  dishes : StrictMonoOn ρ.dish {d | d ∈ p.dishes}

theorem Preparation.mem_actions {p : Preparation} {a : Action} (h : .act a ∈ p.method) :
    a ∈ p.actions :=
  List.mem_filterMap.mpr ⟨_, h, rfl⟩

theorem Preparation.mem_bowls {p : Preparation} {a : Action} (h : .act a ∈ p.method) :
    a.bowl ∈ p.bowls :=
  List.mem_map_of_mem (mem_actions h)

theorem Preparation.mem_dishes {p : Preparation} {a : Action} (h : .act a ∈ p.method) {d : Nat}
    (hd : d ∈ a.dish?) : d ∈ p.dishes :=
  List.mem_filterMap.mpr ⟨a, mem_actions h, hd⟩

theorem Preparation.mem_names {p : Preparation} {st : Statement} (h : st ∈ p.method) {name : String}
    (hname : name ∈ st.names) : name ∈ p.names :=
  List.mem_append_right _ (List.mem_flatMap.mpr ⟨st, h, hname⟩)

/-! ## pantries -/

/-- the copy has what is found under a name under the new name -/
def Pantry.Matches (ρ : Renaming) (names : List String) (p p' : Pantry) : Prop :=
  ∀ name ∈ names, p'.find? (ρ.name name) = (p.find? name).map (·.renamed ρ)

theorem Pantry.matches_renamed {ρ : Renaming} {names : List String} {p : Pantry}
    (hkeys : p.keys ⊆ names) (hnames : Set.InjOn ρ.name {name | name ∈ names}) :
    Pantry.Matches ρ names p (Pantry.renamed ρ p) := by
  have hnodup : ((p.entries.map fun e => (ρ.name e.1, e.2.renamed ρ)).map Prod.fst).Nodup := by
    rw [List.map_map]
    refine List.pairwise_map.mpr (p.keys_ne.imp_of_mem fun {a b} ha hb hne heq => hne ?_)
    exact hnames (hkeys (List.mem_map_of_mem ha)) (hkeys (List.mem_map_of_mem hb)) heq
  intro name hname
  refine Option.ext fun i' => ?_
  rw [Pantry.renamed, Table.find?_ofList_eq_some_iff hnodup, List.mem_map, Option.map_eq_some_iff]
  constructor
  · rintro ⟨⟨key, i⟩, hmem, heq⟩
    obtain ⟨hkey, rfl⟩ := Prod.mk.inj heq
    obtain rfl : key = name := hnames (hkeys (List.mem_map_of_mem hmem)) hname hkey
    exact ⟨i, (p.mem_entries_iff key i).mp hmem, rfl⟩
  · rintro ⟨i, hi, rfl⟩
    exact ⟨(name, i), (p.mem_entries_iff name i).mpr hi, rfl⟩

/-! ## single steps -/

section
variable {ρ : Renaming}

theorem combined_renamed (ρ : Renaming) (named : Ingredient) (factor : Quantity) (n : Nat)
    (bowl : Container) :
    combined (named.renamed ρ) factor (ρ.bowl n) (bowl.renamed ρ) =
      match combined named factor n bowl with
      | .ok i => .ok (i.renamed ρ)
      | .error fault => .error (fault.renamed ρ) := by
  unfold combined
  rw [Container.top?_renamed]
  cases bowl.top? with
  | none => rfl
  | some top =>
    simp only [Option.map_some, Ingredient.value_renamed]
    cases top.value with
    | none => rfl
    | some value =>
      dsimp only
      cases factor.times? value <;> rfl

/-- an action and its copy fail together, and leave kitchens that are alike -/
theorem effect_renamed {names : List String} {bowls dishes : List Nat} {k k' : Kitchen}
    {p p' : Pantry} (hbowls : Set.InjOn ρ.bowl {n | n ∈ bowls})
    (hdishes : StrictMonoOn ρ.dish {d | d ∈ dishes}) (hk : k.Matches ρ bowls dishes k')
    (hp : Pantry.Matches ρ names p p') {a : Action} (hbowl : a.bowl ∈ bowls)
    (hdish : ∀ d ∈ a.dish?, d ∈ dishes) (hname : ∀ name ∈ a.ingredient?, name ∈ names) :
    ((a.renamed ρ).effect k' p').1 = (a.effect k p).1.mapError (·.renamed ρ) ∧
      (a.effect k p).2.Matches ρ bowls dishes ((a.renamed ρ).effect k' p').2 := by
  cases a with
  | put name n =>
    have hfind := hp name (hname name rfl)
    simp only [Action.renamed, Action.effect, hfind]
    cases p.find? name with
    | none => exact ⟨rfl, hk⟩
    | some i =>
      refine ⟨rfl, hk.changeBowl hbowls hbowl (·.push i) (·.push (i.renamed ρ)) fun c => ?_⟩
      exact (c.renamed_push ρ i).symm
  | combine name n =>
    have hfind := hp name (hname name rfl)
    simp only [Action.renamed, Action.effect, hfind]
    cases p.find? name with
    | none => exact ⟨rfl, hk⟩
    | some i =>
      simp only [Option.map_some, combineEffect, Ingredient.value_renamed]
      cases i.value with
      | none => exact ⟨rfl, hk⟩
      | some factor =>
        dsimp only
        rw [hk.bowl_eq n hbowl, combined_renamed]
        have huse := hk.useBowl n (ρ.bowl n)
        cases combined i factor n (k.bowl n) with
        | error fault => exact ⟨rfl, huse⟩
        | ok j =>
          refine ⟨rfl, huse.changeBowl hbowls hbowl (·.push j) (·.push (j.renamed ρ)) fun c => ?_⟩
          exact (c.renamed_push ρ j).symm
  | liquefy n =>
    exact ⟨rfl, hk.changeBowl hbowls hbowl _ _ fun c => (c.renamed_liquefy ρ).symm⟩
  | pour n d => exact ⟨rfl, hk.pour hdishes hbowl (hdish d rfl)⟩
  | stir n minutes =>
    refine ⟨rfl, hk.changeBowl hbowls hbowl (·.stir minutes) (·.stir minutes) fun c => ?_⟩
    exact (c.renamed_stir ρ minutes).symm

theorem loopCheck_renamed {names : List String} {p p' : Pantry} (hp : Pantry.Matches ρ names p p')
    {name : String} (hname : name ∈ names) :
    loopCheck (ρ.name name) p' = (loopCheck name p).mapError (·.renamed ρ) := by
  unfold loopCheck
  rw [hp name hname]
  cases p.find? name with
  | none => rfl
  | some i =>
    simp only [Option.map_some, Ingredient.value_renamed]
    cases i.value <;> rfl

theorem Pantry.Matches.modify {names : List String} {p p' : Pantry}
    (hp : Pantry.Matches ρ names p p') (hnames : Set.InjOn ρ.name {name | name ∈ names})
    {name : String} (hname : name ∈ names) {f : Ingredient → Ingredient}
    (hf : ∀ i, f (i.renamed ρ) = (f i).renamed ρ) :
    Pantry.Matches ρ names (p.modify name f) (p'.modify (ρ.name name) f) := by
  intro other hother
  rw [Table.find?_modify, Table.find?_modify, hp other hother]
  by_cases hsame : other = name
  · rw [if_pos hsame, if_pos (congrArg ρ.name hsame)]
    cases p.find? other with
    | none => rfl
    | some i => exact congrArg some (hf i)
  · have hne : ρ.name other ≠ ρ.name name := fun heq => hsame (hnames hother hname heq)
    rw [if_neg hsame, if_neg hne]

/-- counting down and its copy fail together, or leave tables that are alike -/
theorem countDown_renamed {names : List String} {p p' : Pantry} (hp : Pantry.Matches ρ names p p')
    (hnames : Set.InjOn ρ.name {name | name ∈ names}) {name : String} (hname : name ∈ names) :
    (∃ e, countDown name p = .error e ∧ countDown (ρ.name name) p' = .error (e.renamed ρ)) ∨
      ∃ q q', countDown name p = .ok q ∧ countDown (ρ.name name) p' = .ok q' ∧
        Pantry.Matches ρ names q q' := by
  unfold countDown
  rw [hp name hname]
  cases p.find? name with
  | none => exact .inl ⟨_, rfl, rfl⟩
  | some i =>
    simp only [Option.map_some, Ingredient.value_renamed]
    cases i.value with
    | none => exact .inl ⟨_, rfl, rfl⟩
    | some q =>
      dsimp only
      cases q.pred? with
      | none => exact .inl ⟨_, rfl, rfl⟩
      | some less => exact .inr ⟨_, _, rfl, rfl, hp.modify hnames hname fun i => rfl⟩

end

/-! ## a preparation and its copy -/

/-- the benches of a preparation and of its copy; the logs do not matter -/
structure Renaming.Relates (ρ : Renaming) (p : Preparation) (b b' : Bench) : Prop where
  kitchen : b.kitchen.Matches ρ p.bowls p.dishes b'.kitchen
  pantry : Pantry.Matches ρ p.names b.pantry b'.pantry

/-- the copy fails with the renamed error -/
def Renaming.Errs (ρ : Renaming) (o o' : Error × Bench) : Prop := o'.1 = o.1.renamed ρ

theorem Statement.counters_subset_names (st : Statement) : st.counters ⊆ st.names := by
  cases st with
  | act a => exact List.nil_subset _
  | loopStart verb ingredient => exact List.Subset.refl _
  | loopEnd verbed ingredient? => exact List.Subset.refl _

theorem Preparation.mem_names_of_mem_counters {p : Preparation} {name : String}
    (h : name ∈ p.method.flatMap Statement.counters) : name ∈ p.names := by
  obtain ⟨st, hst, hname⟩ := List.mem_flatMap.mp h
  exact mem_names hst (st.counters_subset_names hname)

/-- loops keep their words, and so do the errors that are about them -/
theorem Error.OfNesting.renamed_eq {e : Error} (h : e.OfNesting) (ρ : Renaming) :
    e.renamed ρ = e := by
  match e with
  | .runtime (.unclosedLoop _) => rfl
  | .runtime (.strayLoopEnd _) => rfl
  | .loopLimit _ _ => rfl

theorem Renaming.simulation {ρ : Renaming} {p : Preparation} (h : ρ.Fits p) :
    Simulation (Action.renamed ρ) ρ.name (ρ.Relates p) ρ.Errs p.method where
  note _ _ _ hb := ⟨hb.kitchen, hb.pantry⟩
  perform a ha := by
    intro b b' hb
    have hname : ∀ name ∈ a.ingredient?, name ∈ p.names := fun name hname =>
      Preparation.mem_names ha (Option.mem_toList.mpr hname)
    obtain ⟨hresult, hkitchen⟩ := effect_renamed h.bowls h.dishes hb.kitchen hb.pantry
      (Preparation.mem_bowls ha) (fun d hd => Preparation.mem_dishes ha hd) hname
    rw [run_perform, run_perform, hresult]
    cases (a.effect b.kitchen b.pantry).1 with
    | error e => exact .error rfl
    | ok u => exact .ok ⟨hkitchen, hb.pantry⟩
  check name hname := by
    intro b b' hb
    rw [run_loopValue, run_loopValue,
      loopCheck_renamed hb.pantry (Preparation.mem_names_of_mem_counters hname)]
    cases loopCheck name b.pantry with
    | error e => exact .error rfl
    | ok value => exact .ok hb
  count name hname := by
    intro b b' hb
    rw [run_decrement, run_decrement]
    rcases countDown_renamed hb.pantry h.names (Preparation.mem_names_of_mem_counters hname) with
      ⟨e, he, he'⟩ | ⟨q, q', hq, hq', hmatches⟩
    · rw [he, he']
      exact .error rfl
    · rw [hq, hq']
      exact .ok ⟨hb.kitchen, hmatches⟩
  fail e he _ _ _ := (he.renamed_eq ρ).symm

/-! ## recipes -/

/-- the kinds of errors, whatever their context -/
inductive ErrorKind where
  | file
  | parse
  | runtime
  | unknownIngredient
  | unrenderable
  | loopLimit
deriving DecidableEq

def Error.kind : Error → ErrorKind
  | .file _ => .file
  | .parse _ _ => .parse
  | .runtime _ => .runtime
  | .unknownIngredient _ => .unknownIngredient
  | .unrenderable _ _ => .unrenderable
  | .loopLimit _ _ => .loopLimit
  | .inContext inner _ => inner.kind

theorem Error.kind_renamed (ρ : Renaming) (e : Error) : (e.renamed ρ).kind = e.kind := by
  induction e with
  | inContext inner context ih => exact ih
  | _ => rfl

theorem Recipe.main?_renamed (ρ : Renaming) (servings : Nat) (r : Recipe) :
    (r.renamed ρ servings).main? = r.main?.map (Preparation.renamed ρ) := by
  show (r.preparations.modify mainKey _).find? mainKey = _
  rw [Table.find?_modify, if_pos rfl]
  rfl

theorem run_result_renamed {r : Recipe} {ρ : Renaming} {servings : Nat}
    (hfits : ∀ main, r.main? = some main → ρ.Fits main)
    (hservings : ∀ main, r.main? = some main → ∀ d ∈ main.dishes,
      ρ.dish d < servings ↔ d < r.servings) (limit : Nat) :
    ((r.renamed ρ servings).run limit).result = (r.run limit).result.mapError (·.renamed ρ) := by
  have hcopy := r.main?_renamed ρ servings
  cases hmain : r.main? with
  | none =>
    rw [hmain] at hcopy
    rw [Recipe.run_result_of_none hmain, Recipe.run_result_of_none hcopy]
    rfl
  | some main =>
    rw [hmain] at hcopy
    rw [Recipe.run_result hmain, Recipe.run_result hcopy]
    have hfit := hfits main hmain
    have hstart : ρ.Relates main ⟨.empty, main.ingredients, []⟩
        ⟨.empty, (main.renamed ρ).ingredients, []⟩ :=
      ⟨Kitchen.Matches.empty _ _ _,
        Pantry.matches_renamed (fun _ hkey => List.mem_append_left _ hkey) hfit.names⟩
    have htogether : Together (ρ.Relates main) ρ.Errs
        (runMethod limit main.method .empty main.ingredients)
        (runMethod limit (main.renamed ρ).method .empty (main.renamed ρ).ingredients) :=
      (ρ.simulation hfit).follow limit main.method (List.Subset.refl _) _ _ hstart
    generalize runMethod limit main.method .empty main.ingredients = o at htogether
    generalize runMethod limit (main.renamed ρ).method .empty (main.renamed ρ).ingredients = o'
      at htogether
    cases htogether with
    | ok related =>
      exact (related.kitchen.useBowl 0 0).serve_eq (hservings main hmain)
    | @error e e' b b' related =>
      obtain rfl : e' = e.renamed ρ := related
      rfl

/-- a recipe and its copy cook the same text, or fail with errors of one kind -/
theorem run_renamed (r : Recipe) (ρ : Renaming) (servings : Nat)
    (hfits : ∀ main, r.main? = some main → ρ.Fits main)
    (hservings : ∀ main, r.main? = some main → ∀ d ∈ main.dishes,
      ρ.dish d < servings ↔ d < r.servings) (limit : Nat) :
    (∀ text, ((r.renamed ρ servings).run limit).result = .ok text ↔
      (r.run limit).result = .ok text) ∧
    ∀ e, (r.run limit).result = .error e →
      ∃ e', ((r.renamed ρ servings).run limit).result = .error e' ∧ e'.kind = e.kind ∧
        e' = e.renamed ρ := by
  rw [run_result_renamed hfits hservings limit]
  cases (r.run limit).result with
  | ok text =>
    refine ⟨fun text' => ?_, nofun⟩
    exact ⟨fun h => congrArg _ (Except.ok.inj h), fun h => congrArg _ (Except.ok.inj h)⟩
  | error e =>
    refine ⟨fun text => ⟨nofun, nofun⟩, fun e' he => ?_⟩
    obtain rfl := Except.error.inj he
    exact ⟨_, rfl, e.kind_renamed ρ, rfl⟩

/-- berries boiled for two rounds and filled into two dishes, of which one is served -/
def jamMain : Preparation where
  title := "Jam"
  ingredients := Table.ofList [("berries", ⟨"berries", Quantity.ofInt? 98, .liquid⟩),
    ("rounds", ⟨"rounds", Quantity.ofInt? 2, .either⟩)]
  method := [.loopStart "Boil" "rounds", .act (.put "berries" 1), .loopEnd "boiled" none,
    .act (.pour 1 7), .act (.pour 1 3)]
  oven := none

def jam : Recipe := Document.recipe ⟨4, jamMain, []⟩

def ripe : Renaming where
  name s := "ripe " ++ s
  bowl n := n + 5
  dish d := 2 * d + 1

theorem run_jam_renamed :
    ripe.Fits jamMain ∧ (∀ d ∈ jamMain.dishes, ripe.dish d < 10 ↔ d < jam.servings) ∧
      ((jam.renamed ripe 10).run 5).result = .ok "bb" := by
  have hfits : ripe.Fits jamMain := by
    refine ⟨fun a _ b _ h => ?_, fun a _ b _ h => ?_, fun a _ b _ h => ?_⟩
    · exact (String.append_right_inj "ripe ").mp h
    · exact Nat.add_right_cancel h
    · show 2 * a + 1 < 2 * b + 1
      omega
  have hservings : ∀ d ∈ jamMain.dishes, ripe.dish d < 10 ↔ d < jam.servings := by decide
  have hmain : ∀ main, jam.main? = some main → main = jamMain := by
    intro main h
    have hjam : jam.main? = some jamMain := rfl
    exact Option.some.inj (h.symm.trans hjam)
  have hrun : (jam.run 5).result = .ok "bb" := by decide +kernel
  refine ⟨hfits, hservings, ?_⟩
  refine ((run_renamed jam ripe 10 ?_ ?_ 5).1 "bb").mpr hrun
  · intro main h
    rw [hmain main h]
    exact hfits
  · intro main h
    rw [hmain main h]
    exact hservings

end Cookery

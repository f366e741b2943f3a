import Cookery.Proofs.Reading.Sections
import Cookery.Proofs.Recipe.Documents
import Cookery.Proofs.Text.Lines

/-!
# The reader accepts exactly the documents of the grammar

* `readPreparation_of_form`, `form_of_readPreparation`   preparations;
* `readAuxiliaries_of_form`, `form_of_readAuxiliaries`   the ones after the main one;
* `parse_of_form`, `form_of_parse`     whole documents;
* `recipe_parse_eq_ok_iff`  a text is read as a recipe iff its lines are a document of it.
-/

namespace Cookery

/-! ## the lines between the ingredients and the method -/

theorem ovenLine?_first {line : String} {t : Option Nat} (h : ovenLine? line = some t) :
    line.toList.head? = some 'P' := by
  unfold ovenLine? at h
  obtain ⟨r, hr, _⟩ := Option.bind_eq_some_iff.mp h
  rw [after?_eq_some_iff.mp hr]
  rfl

theorem ovenLine?_of_blank {line : String} (h : IsBlankLine line) : ovenLine? line = none := by
  refine Option.eq_none_iff_forall_ne_some.mpr fun t ht => ?_
  have hmem := List.mem_of_mem_head? (ovenLine?_first ht)
  exact absurd (h 'P' hmem) (by decide)

theorem ovenLine?_of_serves {line : String} {n : Nat} (h : ServesLine line n) :
    ovenLine? line = none := by
  refine Option.eq_none_iff_forall_ne_some.mpr fun t ht => ?_
  obtain ⟨ds, _, _, hl, _⟩ := h
  have hfirst := ovenLine?_first ht
  rw [hl] at hfirst
  exact absurd (Option.some.inj hfirst) (by decide)

theorem lastOven_append_of_none {a : List String} (h : ∀ l ∈ a, ovenLine? l = none)
    (b : List String) : lastOven (a ++ b) = lastOven b := by
  unfold lastOven
  rw [List.filterMap_append, List.filterMap_eq_nil_iff.mpr h, List.nil_append]

/-- the blank lines at the start of some lines, and what follows them -/
theorem exists_blanks (ls : List String) :
    ∃ blanks after, ls = blanks ++ after ∧ AllBlank blanks ∧
      ∀ l ∈ after.head?, ¬ IsBlankLine l := by
  obtain ⟨blanks, h⟩ := skipBlank_eq_ok ⟨0, ls⟩
  exact ⟨blanks, _, h⟩

theorem earlyCount_exists (ls : List String) : ∃ early?, EarlyCount ls early? := by
  obtain ⟨blanks, after, rfl, hb, ha⟩ := exists_blanks ls
  cases after with
  | nil => exact ⟨none, .absent hb nofun⟩
  | cons l after =>
    cases hs : servesLine? l with
    | some n => exact ⟨some n, .found hb ((servesLine?_eq_some_iff l n).mp hs)⟩
    | none =>
      refine ⟨none, .absent hb fun k hk => ⟨ha k hk, fun n hn => ?_⟩⟩
      obtain rfl : l = k := Option.some.inj hk
      rw [(servesLine?_eq_some_iff l n).mpr hn] at hs
      cases hs

theorem readServings_of_serves {c : Cursor} {line : String} {rest : List String} {n : Nat}
    (hc : c.rest = line :: rest) (h : ServesLine line n) :
    readServings c = .ok (n, ⟨c.read + 1, rest⟩) := by
  obtain ⟨read, ls⟩ := c
  obtain rfl : ls = line :: rest := hc
  unfold readServings Cursor.peek Cursor.advance
  dsimp only
  rw [(servesLine?_eq_some_iff line n).mpr h]

theorem readServingsMaybe_of_serves {c : Cursor} {line : String} {rest : List String} {n : Nat}
    (hc : c.rest = line :: rest) (h : ServesLine line n) :
    readServingsMaybe true c = (some n, ⟨c.read + 1, rest⟩) := by
  obtain ⟨read, ls⟩ := c
  obtain rfl : ls = line :: rest := hc
  unfold readServingsMaybe Cursor.peek Cursor.advance
  dsimp only
  rw [if_pos rfl, (servesLine?_eq_some_iff line n).mpr h]

theorem servesLine?_peek {c : Cursor} (h : ∀ l ∈ c.rest.head?, ∀ n, ¬ ServesLine l n) :
    servesLine? c.peek.text = none := by
  obtain ⟨read, ls⟩ := c
  cases ls with
  | nil => exact (by decide : servesLine? "" = none)
  | cons l ls =>
    refine Option.eq_none_iff_forall_ne_some.mpr fun n hn => ?_
    exact h l rfl n ((servesLine?_eq_some_iff l n).mp hn)

theorem readServingsMaybe_of_other {c : Cursor} (h : ∀ l ∈ c.rest.head?, ∀ n, ¬ ServesLine l n)
    (wanted : Bool) : readServingsMaybe wanted c = (none, c) := by
  unfold readServingsMaybe
  rw [servesLine?_peek h]
  cases wanted <;> rfl

theorem servesLine_not_blank {line : String} {n : Nat} (h : ServesLine line n) :
    ¬ IsBlankLine line := by
  intro hb
  obtain ⟨ds, _, _, hl, _⟩ := h
  have hS : 'S' ∈ line.toList := by
    rw [hl]
    exact List.mem_append_left _ (List.mem_append_left _ (by decide))
  exact absurd (hb 'S' hS) (by decide)

theorem servesLine_head_not_blank {line : String} {n : Nat} (h : ServesLine line n)
    (rest : List String) : ∀ l ∈ (line :: rest).head?, ¬ IsBlankLine l :=
  forall_mem_head_cons (¬ IsBlankLine ·) (servesLine_not_blank h) rest

/-- the serving count before the method, and the heading of the method after it -/
theorem readServingsMaybe_skipTo {between : List String} {early? : Option Nat}
    (hskips : ∀ l ∈ between, l ≠ Heading.method.text) (hearly : EarlyCount between early?)
    (wanted : Bool) (read : Nat) (tail : List String) :
    ∃ c, readServingsMaybe wanted
        (Cursor.skipBlank ⟨read, between ++ Heading.method.text :: tail⟩) =
          (if wanted then early? else none, c) ∧
      ∃ n, skipTo .method none c.read c.rest = .ok (lastOven between, ⟨n, tail⟩) := by
  cases hearly with
  | @found blanks after line servings hb hcount =>
    have hoven : lastOven (blanks ++ line :: after) = lastOven (line :: after) :=
      lastOven_append_of_none (fun l hl => ovenLine?_of_blank (hb l hl)) _
    have hafter : ∀ l ∈ after, l ≠ Heading.method.text := fun l hl =>
      hskips l (List.mem_append_right _ (List.mem_cons_of_mem _ hl))
    rw [List.append_assoc, List.cons_append,
      skipBlank_append hb (servesLine_head_not_blank hcount _)]
    cases wanted with
    | true =>
      refine ⟨_, readServingsMaybe_of_serves rfl hcount, ?_⟩
      have hoven' : lastOven (line :: after) = lastOven after :=
        lastOven_append_of_none (a := [line]) (by simpa using ovenLine?_of_serves hcount) after
      rw [hoven, hoven']
      exact ⟨_, skipTo_append hafter none _ tail⟩
    | false =>
      refine ⟨_, rfl, ?_⟩
      have hlead : ∀ l ∈ line :: after, l ≠ Heading.method.text := fun l hl =>
        hskips l (List.mem_append_right _ hl)
      rw [hoven]
      exact ⟨_, skipTo_append hlead none _ tail⟩
  | @absent blanks after hb hother =>
    have hoven : lastOven (blanks ++ after) = lastOven after :=
      lastOven_append_of_none (fun l hl => ovenLine?_of_blank (hb l hl)) _
    -- the first line that is not blank is one of `after`, or else the heading
    have hfirst : ∀ l ∈ (after ++ Heading.method.text :: tail).head?,
        ¬ IsBlankLine l ∧ ∀ n, ¬ ServesLine l n := by
      cases after with
      | nil =>
        refine forall_mem_head_cons _ ⟨heading_not_blank .method, fun n hn => ?_⟩ tail
        exact servesLine_ne_heading hn .method rfl
      | cons k after => exact hother
    have hlead : ∀ l ∈ after, l ≠ Heading.method.text := fun l hl =>
      hskips l (List.mem_append_right _ hl)
    rw [List.append_assoc, skipBlank_append hb fun l hl => (hfirst l hl).1,
      readServingsMaybe_of_other (fun l hl => (hfirst l hl).2) wanted, ite_self]
    refine ⟨_, rfl, ?_⟩
    rw [hoven]
    exact ⟨_, skipTo_append hlead none _ tail⟩

/-- lines whose count before the method is passed end at the heading of the method -/
theorem eq_append_of_skipTo {wanted : Bool} {c d : Cursor} {oven : Option Nat}
    (h : skipTo .method none (readServingsMaybe wanted c.skipBlank).2.read
      (readServingsMaybe wanted c.skipBlank).2.rest = .ok (oven, d)) :
    ∃ between, c.rest = between ++ Heading.method.text :: d.rest ∧
      ∀ l ∈ between, l ≠ Heading.method.text := by
  obtain ⟨lead, hlead, hskips⟩ := skipTo_eq_ok h
  obtain ⟨blanks, hblanks, hb, _⟩ := skipBlank_eq_ok c
  have hb' : ∀ l ∈ blanks, l ≠ Heading.method.text := fun l hl he =>
    heading_not_blank .method (he ▸ hb l hl)
  by_cases hserves : wanted = true ∧ ∃ l n, l ∈ c.skipBlank.rest.head? ∧ ServesLine l n
  · obtain ⟨rfl, l, n, hl, hn⟩ := hserves
    obtain ⟨rest, hrest⟩ := List.head?_eq_some_iff.mp hl
    rw [readServingsMaybe_of_serves hrest hn] at hlead
    obtain rfl : rest = _ := hlead
    refine ⟨blanks ++ l :: lead, ?_, fun k hk => ?_⟩
    · rw [hblanks, hrest, List.append_assoc, List.cons_append]
    · rcases List.mem_append.mp hk with hk | hk
      · exact hb' k hk
      · rcases List.mem_cons.mp hk with rfl | hk
        · exact servesLine_ne_heading hn .method
        · exact hskips k hk
  · have hsame : (readServingsMaybe wanted c.skipBlank).2 = c.skipBlank := by
      cases wanted with
      | false => rfl
      | true =>
        rw [readServingsMaybe_of_other fun l hl n hn => hserves ⟨rfl, l, n, hl, hn⟩]
    rw [hsame] at hlead
    refine ⟨blanks ++ lead, ?_, fun k hk => ?_⟩
    · rw [hblanks, hlead, List.append_assoc]
    · rcases List.mem_append.mp hk with hk | hk
      · exact hb' k hk
      · exact hskips k hk

/-! ## preparations -/

/-- what follows the ingredients, up to the method, does not start with another one -/
theorem between_head_not_text {between : List String} (h : ∀ l ∈ between.head?, ¬ IsTextLine l)
    (rest : List String) :
    ∀ l ∈ (between ++ Heading.method.text :: rest).head?, ¬ IsTextLine l := by
  cases between with
  | nil => exact forall_mem_head_cons (¬ IsTextLine ·) (fun htext => htext.2 .method rfl) _
  | cons k between => exact h

theorem readPreparation_of_form {title : String} {ls between rest : List String}
    {p : Preparation} {early? : Option Nat} (h : PreparationForm title ls p between rest)
    (hearly : EarlyCount between early?) (wanted : Bool) (read : Nat) :
    ∃ n, readPreparation title wanted ⟨read, ls⟩ =
      .ok ((p, if wanted then early? else none), ⟨n, rest⟩) := by
  obtain ⟨hlead, ⟨htext, is, his, hnames, rfl⟩, hlongest, hskips, hsteps, hrest⟩ := h
  rename_i lead items steps method
  have hnew : ∀ i ∈ is, (Table.empty : Pantry).contains i.name = false := fun _ _ => rfl
  unfold readPreparation
  rw [skipTo_append hlead]
  dsimp only
  rw [readIngredients_append htext his hnames (between_head_not_text hlongest _) .empty hnew]
  dsimp only
  obtain ⟨c, hc, n, hn⟩ :=
    readServingsMaybe_skipTo hskips hearly wanted (read + lead.length + 1 + items.length)
      (steps ++ rest)
  rw [hc]
  dsimp only
  rw [hn]
  dsimp only
  rw [readMethod_append hsteps hrest]
  exact ⟨_, by rw [ofList_eq_storeBy]⟩

theorem form_of_readPreparation {title : String} {wanted : Bool} {c d : Cursor}
    {p : Preparation} {servings? : Option Nat}
    (h : readPreparation title wanted c = .ok ((p, servings?), d)) :
    ∃ between early?, PreparationForm title c.rest p between d.rest ∧
      EarlyCount between early? ∧ servings? = if wanted then early? else none := by
  unfold readPreparation at h
  split at h
  · cases h
  · rename_i _ c₁ h₁
    split at h
    · cases h
    · rename_i pantry c₂ h₂
      dsimp only at h
      split at h
      · cases h
      · rename_i oven c₄ h₄
        split at h
        · cases h
        · rename_i method c₅ h₅
          cases h
          obtain ⟨lead, hlead, hlead_skips⟩ := skipTo_eq_ok h₁
          obtain ⟨items, is, hitems, htext, hlongest, his, hnames, _, hpantry⟩ :=
            readIngredients_eq_ok h₂
          obtain ⟨between, hbetween, hskips⟩ := eq_append_of_skipTo h₄
          obtain ⟨steps, hsteps, hrun, hrest⟩ := readMethod_eq_ok h₅
          obtain ⟨early?, hearly⟩ := earlyCount_exists between
          have hlongest' : ∀ l ∈ between.head?, ¬ IsTextLine l := by
            intro l hl
            refine hlongest l ?_
            rw [hbetween, List.head?_append, hl]
            rfl
          -- the reader is a function: what it reads of these lines is the count and the oven
          obtain ⟨c₃, hc₃, n, hn⟩ :=
            readServingsMaybe_skipTo hskips hearly wanted c₂.read c₄.rest
          rw [← hbetween] at hc₃
          rw [show (⟨c₂.read, c₂.rest⟩ : Cursor) = c₂ from rfl] at hc₃
          rw [hc₃] at h₄ ⊢
          dsimp only at h₄ ⊢
          rw [hn] at h₄
          obtain ⟨rfl, _⟩ := Prod.mk.inj (Except.ok.inj h₄)
          refine ⟨between, early?, ?_, hearly, rfl⟩
          rw [hlead, hitems, hbetween, hsteps, hpantry]
          refine .mk hlead_skips ⟨htext, is, his, hnames, ?_⟩ hlongest' hskips hrun hrest
          exact (ofList_eq_storeBy is).symm

/-! ## auxiliary preparations -/

theorem AuxiliariesForm.head_not_blank {ls : List String} {ps : List Preparation}
    (h : AuxiliariesForm ls ps) : ∀ l ∈ ls.head?, ¬ IsBlankLine l := by
  cases h with
  | none => nofun
  | more title_text _ _ _ => exact forall_mem_head_cons (¬ IsBlankLine ·) title_text _

theorem readAuxiliaries_nil (taken : List String) (read : Nat) :
    readAuxiliaries taken ⟨read, []⟩ = .ok [] := by
  rw [readAuxiliaries]

theorem readAuxiliaries_cons (taken : List String) (read : Nat) (title : String)
    (ls : List String) :
    readAuxiliaries taken ⟨read, title :: ls⟩ =
      match readPreparation title false ⟨read + 1, ls⟩ with
      | .error e => .error e
      | .ok ((p, _), c) =>
        if taken.contains title then .error ⟨read + 1, .duplicateRecipe title⟩
        else
          match readAuxiliaries (title :: taken) c.skipBlank with
          | .error e => .error e
          | .ok ps => .ok (p :: ps) := by
  rw [readAuxiliaries]
  split
  · rename_i hc
    cases hc
  · rename_i hc
    cases hc
    dsimp only
    split
    · rename_i hp
      generalize readPreparation title false ⟨read + 1, ls⟩ = result at hp ⊢
      cases hp
      rfl
    · rename_i hp
      generalize readPreparation title false ⟨read + 1, ls⟩ = result at hp ⊢
      cases hp
      rfl

theorem readAuxiliaries_of_form {ls : List String} {ps : List Preparation}
    (h : AuxiliariesForm ls ps) (taken : List String) (read : Nat)
    (htaken : ∀ p ∈ ps, p.title ∉ taken) (hnodup : (ps.map Preparation.title).Nodup) :
    readAuxiliaries taken ⟨read, ls⟩ = .ok ps := by
  induction h generalizing taken read with
  | none => rw [readAuxiliaries]
  | @more title lines between blanks rest p ps title_text first blanks_blank others ih =>
    obtain ⟨early?, hearly⟩ := earlyCount_exists between
    obtain ⟨n, hn⟩ := readPreparation_of_form first hearly false (read + 1)
    obtain rfl := first.title_eq
    rw [List.map_cons, List.nodup_cons] at hnodup
    have hnew : p.title ∉ taken := htaken p List.mem_cons_self
    have hothers := ih (p.title :: taken) (n + blanks.length)
      (fun q hq hmem => by
        rcases List.mem_cons.mp hmem with he | hmem
        · exact hnodup.1 (he ▸ List.mem_map_of_mem hq)
        · exact htaken q (List.mem_cons_of_mem _ hq) hmem) hnodup.2
    rw [readAuxiliaries_cons, hn]
    dsimp only
    rw [List.contains_eq_mem, decide_eq_false hnew, if_neg Bool.false_ne_true,
      skipBlank_append blanks_blank others.head_not_blank, hothers]

theorem title_of_readPreparation {title : String} {wanted : Bool} {c d : Cursor}
    {p : Preparation} {servings? : Option Nat}
    (h : readPreparation title wanted c = .ok ((p, servings?), d)) : p.title = title := by
  obtain ⟨_, _, hform, _⟩ := form_of_readPreparation h
  exact hform.title_eq

/-- the lines after a preparation are fewer than those from its title on -/
theorem length_lt_of_readPreparation {title : String} {wanted : Bool} {read : Nat}
    {ls : List String} {d : Cursor} {p : Preparation × Option Nat}
    (h : readPreparation title wanted ⟨read, ls⟩ = .ok (p, d)) :
    d.skipBlank.rest.length < (title :: ls).length := by
  have hsuffix := (d.skipBlank_rest_suffix.trans (readPreparation_suffix h)).length_le
  exact Nat.lt_succ_of_le hsuffix

/-- a preparation with a new title, and then the others -/
theorem readAuxiliaries_cons_of_ok {taken : List String} {read : Nat} {title : String}
    {ls : List String} {p : Preparation} {servings? : Option Nat} {d : Cursor}
    (hp : readPreparation title false ⟨read + 1, ls⟩ = .ok ((p, servings?), d))
    (hnew : title ∉ taken) :
    readAuxiliaries taken ⟨read, title :: ls⟩ =
      (readAuxiliaries (title :: taken) d.skipBlank).map (p :: ·) := by
  rw [readAuxiliaries_cons, hp]
  dsimp only
  rw [List.contains_eq_mem, decide_eq_false hnew, if_neg Bool.false_ne_true]
  cases readAuxiliaries (title :: taken) d.skipBlank <;> rfl

/-- all that reading the preparations from a title on can be, if it ends well -/
theorem exists_of_readAuxiliaries_cons {taken : List String} {read : Nat} {title : String}
    {ls : List String} {ps : List Preparation}
    (h : readAuxiliaries taken ⟨read, title :: ls⟩ = .ok ps) :
    ∃ p servings? d others, readPreparation title false ⟨read + 1, ls⟩ = .ok ((p, servings?), d) ∧
      title ∉ taken ∧ readAuxiliaries (title :: taken) d.skipBlank = .ok others ∧
      ps = p :: others := by
  rw [readAuxiliaries_cons] at h
  split at h
  · cases h
  · rename_i p servings? d hp
    split at h
    · cases h
    · rename_i hnew
      split at h
      · cases h
      · rename_i others hothers
        cases h
        refine ⟨p, servings?, d, others, hp, fun hmem => hnew ?_, hothers, rfl⟩
        exact List.elem_eq_true_of_mem hmem

/-- by induction on the number of lines, which get fewer with every preparation -/
theorem form_of_readAuxiliaries {taken : List String} {c : Cursor} {ps : List Preparation}
    (h : readAuxiliaries taken c = .ok ps) (hfirst : ∀ l ∈ c.rest.head?, ¬ IsBlankLine l) :
    AuxiliariesForm c.rest ps ∧ (∀ p ∈ ps, p.title ∉ taken) ∧
      (ps.map Preparation.title).Nodup := by
  generalize hlen : c.rest.length = len
  induction len using Nat.strongRecOn generalizing taken c ps with
  | ind len ih =>
    obtain ⟨read, ls⟩ := c
    cases ls with
    | nil =>
      rw [readAuxiliaries_nil] at h
      cases h
      exact ⟨.none, nofun, List.nodup_nil⟩
    | cons title ls =>
      obtain ⟨p, servings?, d, others, hp, hnew, hps, rfl⟩ := exists_of_readAuxiliaries_cons h
      obtain ⟨between, early?, hform, _, _⟩ := form_of_readPreparation hp
      obtain ⟨blanks, hblanks, hb, hnb⟩ := skipBlank_eq_ok d
      have hshort : d.skipBlank.rest.length < len := hlen ▸ length_lt_of_readPreparation hp
      obtain ⟨hothers, htaken, hnodup⟩ := ih _ hshort hps hnb rfl
      have htitle := hform.title_eq
      rw [hblanks] at hform
      refine ⟨.more (hfirst title rfl) hform hb hothers, fun q hq hmem => ?_, ?_⟩
      · rcases List.mem_cons.mp hq with rfl | hq
        · rw [htitle] at hmem
          exact hnew hmem
        · exact htaken q hq (List.mem_cons_of_mem _ hmem)
      · rw [List.map_cons, List.nodup_cons, htitle]
        refine ⟨fun hmem => ?_, hnodup⟩
        obtain ⟨q, hq, he⟩ := List.mem_map.mp hmem
        exact htaken q hq (he ▸ List.mem_cons_self)

/-! ## documents -/

theorem parse_of_form {source : String} {d : Document}
    (h : DocumentForm AllBlank (textLines source) d) : Document.parse source = .ok d := by
  generalize hls : textLines source = ls at h
  obtain ⟨main_form, early, blanks_blank, late, gap_blank, others, titles⟩ := h
  rename_i title lines between blanks count gap rest main early? servings auxiliaries
  obtain ⟨n, hn⟩ := readPreparation_of_form main_form early true 1
  rw [if_pos rfl] at hn
  rw [List.nodup_cons] at titles
  have hothers : ∀ read, readAuxiliaries [mainKey] ⟨read, rest⟩ = .ok auxiliaries := by
    intro read
    refine readAuxiliaries_of_form others [mainKey] read (fun p hp hmem => ?_) titles.2
    rw [List.mem_singleton] at hmem
    exact titles.1 (hmem ▸ List.mem_map_of_mem hp)
  have hgap := skipBlank_append gap_blank others.head_not_blank
  unfold Document.parse
  rw [hls]
  dsimp only
  rw [hn]
  dsimp only
  cases late with
  | before =>
    have hall : AllBlank (blanks ++ gap) := by
      intro l hl
      rcases List.mem_append.mp hl with hl | hl
      · exact blanks_blank l hl
      · exact gap_blank l hl
    rw [List.nil_append, ← List.append_assoc, skipBlank_append hall others.head_not_blank]
    dsimp only [servingsAfter]
    rw [skipBlank_of_not_blank others.head_not_blank, hothers]
  | @here line _ hcount =>
    rw [List.singleton_append, skipBlank_append blanks_blank (servesLine_head_not_blank hcount _)]
    dsimp only [servingsAfter]
    rw [readServings_of_serves rfl hcount]
    dsimp only
    rw [hgap, hothers]

theorem lateCount_of_servingsAfter {early? : Option Nat} {c d : Cursor} {servings : Nat}
    (h : servingsAfter early? c = .ok (servings, d)) :
    ∃ count, c.rest = count ++ d.rest ∧ LateCount early? count servings := by
  cases early? with
  | some n =>
    cases h
    exact ⟨[], rfl, .before _⟩
  | none =>
    obtain ⟨read, ls⟩ := c
    cases ls with
    | nil =>
      have hnone : servesLine? "" = none := by decide
      unfold servingsAfter readServings Cursor.peek at h
      dsimp only at h
      rw [hnone] at h
      cases h
    | cons line ls =>
      unfold servingsAfter readServings Cursor.peek at h
      dsimp only at h
      split at h
      · rename_i n hn
        cases h
        exact ⟨[line], rfl, .here ((servesLine?_eq_some_iff line _).mp hn)⟩
      · cases h

theorem form_of_parse {source : String} {d : Document} (h : Document.parse source = .ok d) :
    DocumentForm AllBlank (textLines source) d := by
  unfold Document.parse at h
  split at h
  · cases h
  · rename_i title ls hls
    split at h
    · cases h
    · rename_i main servings? c hmain
      split at h
      · cases h
      · rename_i servings c' hservings
        split at h
        · cases h
        · rename_i auxiliaries haux
          cases h
          obtain ⟨between, early?, hform, hearly, hearly?⟩ := form_of_readPreparation hmain
          rw [if_pos rfl] at hearly?
          obtain rfl := hearly?
          obtain ⟨blanks, hblanks, hb, _⟩ := skipBlank_eq_ok c
          obtain ⟨count, hcount, hlate⟩ := lateCount_of_servingsAfter hservings
          obtain ⟨gap, hgap, hg, hnb⟩ := skipBlank_eq_ok c'
          obtain ⟨hothers, htaken, hnodup⟩ := form_of_readAuxiliaries haux hnb
          rw [hblanks, hcount, hgap] at hform
          rw [hls]
          refine .mk hform hearly hb hlate hg hothers (List.nodup_cons.mpr ⟨fun hmem => ?_, hnodup⟩)
          obtain ⟨p, hp, he⟩ := List.mem_map.mp hmem
          exact htaken p hp (he ▸ List.mem_cons_self)

/-! ## recipes -/

theorem recipe_parse_iff (source : String) (r : Recipe) :
    Recipe.parse source = .ok r ↔
      ∃ d, DocumentForm AllBlank (textLines source) d ∧ d.recipe = r := by
  constructor
  · intro h
    unfold Recipe.parse at h
    cases hd : Document.parse source with
    | error e =>
      rw [hd] at h
      cases h
    | ok d =>
      rw [hd] at h
      exact ⟨d, form_of_parse hd, Except.ok.inj h⟩
  · intro ⟨d, hd, hr⟩
    unfold Recipe.parse
    rw [parse_of_form hd, ← hr]
    rfl

theorem DocumentForm.titled {After : List String → Prop} {ls : List String} {d : Document}
    (h : DocumentForm After ls d) : d.Titled := by
  cases h
  assumption

/-- the lines of a text: a carriage return goes with the line feed after it, once -/
def documentLines (source : String) : List String :=
  (linesOf (unifyLineEnds source.toList)).map String.ofList

theorem textLines_eq (source : String) : textLines source = documentLines source := by
  unfold textLines documentLines
  rw [splitLines_eq]

/-- a text is read as a recipe iff its lines are a document of that recipe -/
theorem recipe_parse_eq_ok_iff (source : String) (r : Recipe) :
    Recipe.parse source = .ok r ↔
      ∃ d, DocumentForm AllBlank (documentLines source) d ∧ d.recipe = r := by
  rw [recipe_parse_iff]
  simp only [textLines_eq]

/-- blank lines are passed over after a late serving count too: this text is read, but it is no
document with nothing in that place -/
theorem parse_blank_after_late_count :
    (∃ r, Recipe.parse "T\nIngredients.\nMethod.\n\nServes 1.\n\n" = .ok r) ∧
      ¬ ∃ d, DocumentForm (· = [])
        (documentLines "T\nIngredients.\nMethod.\n\nServes 1.\n\n") d := by
  have hlines : textLines "T\nIngredients.\nMethod.\n\nServes 1.\n\n" =
      ["T", "Ingredients.", "Method.", "", "Serves 1.", ""] := by decide
  have hread : readPreparation "T" true ⟨1, ["Ingredients.", "Method.", "", "Serves 1.", ""]⟩ =
      .ok ((⟨"T", .empty, [], none⟩, none), ⟨3, ["", "Serves 1.", ""]⟩) := rfl
  constructor
  · refine ⟨Document.recipe ⟨1, ⟨"T", .empty, [], none⟩, []⟩, ?_⟩
    have hend : (⟨5, [""]⟩ : Cursor).skipBlank = ⟨6, []⟩ := by decide
    have hcount : servingsAfter none (⟨3, ["", "Serves 1.", ""]⟩ : Cursor).skipBlank =
        .ok (1, ⟨5, [""]⟩) := rfl
    unfold Recipe.parse Document.parse
    rw [hlines]
    dsimp only
    rw [hread]
    dsimp only
    rw [hcount]
    dsimp only
    rw [hend, readAuxiliaries_nil]
    rfl
  · rw [← textLines_eq, hlines]
    rintro ⟨d, h⟩
    cases h with
    | @mk _ _ _ _ _ _ rest _ _ _ _ main_form early blanks_blank late gap_after others _ =>
      obtain rfl := gap_after
      obtain ⟨n, hn⟩ := readPreparation_of_form main_form early true 1
      rw [hread, if_pos rfl] at hn
      obtain ⟨hp, hc⟩ := Prod.mk.inj (Except.ok.inj hn)
      obtain rfl := (Prod.mk.inj hp).2
      have hrest := (Cursor.mk.inj hc).2
      cases late with
      | here count =>
        -- the first line left that is not blank is the count, and the blank one after it no title
        rw [List.nil_append, List.singleton_append] at hrest
        have hskip := congrArg Cursor.rest
          (skipBlank_append blanks_blank (servesLine_head_not_blank count rest) 0)
        rw [← hrest] at hskip
        obtain ⟨_, rfl⟩ := List.cons.inj hskip
        exact others.head_not_blank "" rfl nofun

/-- three rows, each put into the bowl as it is kneaded -/
def doughMain : Preparation where
  title := "Dough"
  ingredients := Table.ofList [("rows", ⟨"rows", Quantity.ofInt? 3, .dry⟩)]
  method := [.loopStart "Knead" "rows", .act (.put "rows" 0), .loopEnd "kneaded" none]
  oven := none

def doughText : String :=
  "Dough\nIngredients.\n3 g rows\nMethod.\nKnead the rows. Put rows into mixing bowl.\n" ++
    "Wait until kneaded.\nServes 1.\n"

theorem parse_doughText : Recipe.parse doughText = .ok (Document.recipe ⟨1, doughMain, []⟩) := by
  have hlines : textLines doughText = ["Dough", "Ingredients.", "3 g rows", "Method.",
      "Knead the rows. Put rows into mixing bowl.", "Wait until kneaded.", "Serves 1."] := by
    decide +kernel
  have hmain : readPreparation "Dough" true ⟨1, ["Ingredients.", "3 g rows", "Method.",
      "Knead the rows. Put rows into mixing bowl.", "Wait until kneaded.", "Serves 1."]⟩ =
        .ok ((doughMain, none), ⟨6, ["Serves 1."]⟩) := rfl
  have hcount : servingsAfter none (⟨6, ["Serves 1."]⟩ : Cursor).skipBlank =
      .ok (1, ⟨7, []⟩) := rfl
  unfold Recipe.parse Document.parse
  rw [hlines]
  dsimp only
  rw [hmain]
  dsimp only
  rw [hcount]
  dsimp only
  rw [show (⟨7, []⟩ : Cursor).skipBlank = ⟨7, []⟩ from rfl, readAuxiliaries_nil]
  rfl

end Cookery

import EntryForm.Proofs.Derivation

/-!
# Cutting choices off

The choices below a node form a row: each comes before those below it, and those below one come
before the next one beside it. Without a cut every one of them is an option, as deep as it lies.
With a cut the options that lie too deep are left out, and the option right above the cut tells how
many choices are missing below it.
-/

namespace EntryForm

/-- A choice somewhere below a node. -/
structure NestedChoice where
  /-- The positions of the choices on the way to it, its own last. -/
  place : List Nat
  key : String
  entity : Entity

namespace NestedChoice

/-- How many choices lie above. -/
def level (n : NestedChoice) : Nat := n.place.length - 1

/-- The same choice, seen from above the choice at a position. -/
def under (position : Nat) (n : NestedChoice) : NestedChoice :=
  { n with place := position :: n.place }

/-- The option of a choice, with nothing left out below it. -/
def option (fields : List String) (depth : Nat) (n : NestedChoice) : Choice :=
  Choice.ofEntity fields (depth + n.level) n.key n.entity.toFacts (.options [])

end NestedChoice

/-- An option right above a cut tells how many choices are left out below it, if there are any. -/
def Choice.cutOff (cut : Option Nat) (width : Nat) (c : Choice) : Choice :=
  if cut = some (c.depth + 1) ∧ 0 < width then
    { c with label := c.label ++ " (" ++ toString width ++ ")", hiddenCount := some width }
  else c

namespace Entity

/-- The choice at a place below a node. -/
def choiceAt? : List Nat → Entity → Option (String × Entity)
  | [], _ => none
  | position :: place, e =>
    (e.choices.entries[position]?).bind fun entry =>
      if place = [] then some entry else choiceAt? place entry.2

mutual
/-- All choices below a node, each before those below it. -/
def choiceRow : Entity → List NestedChoice
  | ⟨_, _, ⟨choices⟩, _⟩ => choiceRowFrom 0 choices
/-- The choices of a row and those below them, the first of the row at a position. -/
def choiceRowFrom (position : Nat) : List (String × Entity) → List NestedChoice
  | [] => []
  | (key, e) :: rest =>
    ⟨[position], key, e⟩ ::
      ((choiceRow e).map (.under position) ++ choiceRowFrom (position + 1) rest)
end

/-- The options that are left of a row of choices at a depth. -/
def optionsTo (cut : Option Nat) (fields : List String) (depth : Nat) (row : List NestedChoice) :
    List Choice :=
  (row.filter fun n => cut.all (depth + n.level < ·)).map fun n =>
    (n.option fields depth).cutOff cut n.entity.choices.entries.length

theorem ne_nil_of_choiceAt? {place : List Nat} {e : Entity} {entry : String × Entity}
    (h : e.choiceAt? place = some entry) : place ≠ [] := by
  rintro rfl
  cases h

mutual
/-- The row holds exactly the choices that are found at their places. -/
theorem mem_choiceRow_iff {n : NestedChoice} : ∀ {e : Entity},
    n ∈ e.choiceRow ↔ e.choiceAt? n.place = some (n.key, n.entity)
  | ⟨facts, components, ⟨choices⟩, units⟩ => by
      rw [choiceRow, mem_choiceRowFrom_iff]
      constructor
      · rintro ⟨position, place, entry, hplace, hentry, hat⟩
        rw [hplace, Nat.zero_add, choiceAt?]
        exact Option.bind_eq_some_iff.mpr ⟨entry, hentry, hat⟩
      · intro h
        cases hplace : n.place with
        | nil =>
            rw [hplace, choiceAt?] at h
            cases h
        | cons position place =>
            rw [hplace, choiceAt?] at h
            obtain ⟨entry, hentry, hat⟩ := Option.bind_eq_some_iff.mp h
            exact ⟨position, place, entry, by rw [Nat.zero_add], hentry, hat⟩
/-- The row from a position on holds exactly the choices that are found there or below. -/
theorem mem_choiceRowFrom_iff {n : NestedChoice} : ∀ {first : Nat}
    {choices : List (String × Entity)},
    n ∈ choiceRowFrom first choices ↔
      ∃ position place entry, n.place = (first + position) :: place ∧
        choices[position]? = some entry ∧
        (if place = [] then some entry else choiceAt? place entry.2) = some (n.key, n.entity)
  | first, [] => by simp [choiceRowFrom]
  | first, (key, e) :: rest => by
      rw [choiceRowFrom, List.mem_cons, List.mem_append, List.mem_map, mem_choiceRowFrom_iff]
      constructor
      · rintro (rfl | ⟨m, hm, rfl⟩ | ⟨position, place, entry, hplace, hentry, hat⟩)
        · exact ⟨0, [], (key, e), rfl, rfl, rfl⟩
        · have hat := mem_choiceRow_iff.mp hm
          refine ⟨0, m.place, (key, e), rfl, rfl, ?_⟩
          rw [if_neg (ne_nil_of_choiceAt? hat), hat, NestedChoice.under]
        · exact ⟨position + 1, place, entry, by rw [hplace]; congr 1; omega, hentry, hat⟩
      · rintro ⟨position, place, entry, hplace, hentry, hat⟩
        obtain ⟨own, name, entity⟩ := n
        subst hplace
        cases position with
        | zero =>
            obtain rfl : (key, e) = entry := Option.some.inj hentry
            split at hat
            case isTrue hnil =>
              cases hat
              exact Or.inl (by rw [hnil]; rfl)
            case isFalse hne =>
              exact Or.inr (Or.inl ⟨⟨place, name, entity⟩, mem_choiceRow_iff.mpr hat, rfl⟩)
        | succ position =>
            refine Or.inr (Or.inr ⟨position, place, entry, ?_, hentry, hat⟩)
            rw [Nat.add_right_comm, Nat.add_assoc]
end

theorem place_ne_nil {e : Entity} {n : NestedChoice} (h : n ∈ e.choiceRow) : n.place ≠ [] :=
  ne_nil_of_choiceAt? (mem_choiceRow_iff.mp h)

mutual
/-- The places of a row increase: no choice comes twice, and all come in the order of the
document. -/
theorem pairwise_choiceRow : ∀ e : Entity,
    e.choiceRow.Pairwise fun n m => n.place < m.place
  | ⟨facts, components, ⟨choices⟩, units⟩ => by
      rw [choiceRow]
      exact pairwise_choiceRowFrom 0 choices
/-- The places of a row increase, for what follows a choice starts with a later position. -/
theorem pairwise_choiceRowFrom : ∀ (first : Nat) (choices : List (String × Entity)),
    (choiceRowFrom first choices).Pairwise fun n m => n.place < m.place
  | first, [] => List.Pairwise.nil
  | first, (key, e) :: rest => by
      have hbelow : ((choiceRow e).map (NestedChoice.under first)).Pairwise
          fun n m => n.place < m.place := by
        rw [List.pairwise_map]
        refine (pairwise_choiceRow e).imp fun h => ?_
        exact List.cons_lt_cons_iff.mpr (Or.inr ⟨rfl, h⟩)
      have hrest := pairwise_choiceRowFrom (first + 1) rest
      have hlater {m : NestedChoice} (hm : m ∈ choiceRowFrom (first + 1) rest)
          (place : List Nat) : first :: place < m.place := by
        obtain ⟨position, more, _, hplace, _⟩ := mem_choiceRowFrom_iff.mp hm
        rw [hplace]
        exact List.cons_lt_cons_iff.mpr (Or.inl (by omega))
      rw [choiceRowFrom, List.pairwise_cons, List.pairwise_append]
      refine ⟨?_, hbelow, hrest, ?_⟩
      · intro m hm
        rcases List.mem_append.mp hm with hm | hm
        · obtain ⟨n, hn, rfl⟩ := List.mem_map.mp hm
          obtain ⟨position, place, hplace⟩ := List.exists_cons_of_ne_nil (place_ne_nil hn)
          refine List.cons_lt_cons_iff.mpr (Or.inr ⟨rfl, ?_⟩)
          rw [hplace]
          exact List.nil_lt_cons _ _
        · exact hlater hm []
      · rintro n hn m hm
        obtain ⟨n, _, rfl⟩ := List.mem_map.mp hn
        exact hlater hm n.place
end

section options
variable {cut : Option Nat} {fields : List String} {depth : Nat}

theorem optionsTo_cons (n : NestedChoice) (row : List NestedChoice)
    (h : ∀ c ∈ cut, depth + n.level < c) :
    optionsTo cut fields depth (n :: row) =
      (n.option fields depth).cutOff cut n.entity.choices.entries.length ::
        optionsTo cut fields depth row := by
  rw [optionsTo, List.filter_cons_of_pos (by simpa [Option.all_eq_true] using h), List.map_cons,
    optionsTo]

/-- The options of two rows are those of the one and then those of the other. -/
theorem optionsTo_append (row row' : List NestedChoice) :
    optionsTo cut fields depth (row ++ row') =
      optionsTo cut fields depth row ++ optionsTo cut fields depth row' := by
  rw [optionsTo, List.filter_append, List.map_append, optionsTo, optionsTo]

/-- Choices below one at a depth are one deeper. -/
theorem optionsTo_under (e : Entity) (position : Nat) :
    optionsTo cut fields depth (e.choiceRow.map (.under position)) =
      optionsTo cut fields (depth + 1) e.choiceRow := by
  have hdepth {n : NestedChoice} (hn : n ∈ e.choiceRow) :
      depth + (n.under position).level = depth + 1 + n.level := by
    have hpos := List.length_pos_iff.mpr (place_ne_nil hn)
    simp only [NestedChoice.level, NestedChoice.under, List.length_cons]
    omega
  rw [optionsTo, List.filter_map, List.map_map, optionsTo]
  have hkept : e.choiceRow.filter
      ((fun n => cut.all (depth + n.level < ·)) ∘ NestedChoice.under position) =
      e.choiceRow.filter fun n => cut.all (depth + 1 + n.level < ·) := by
    refine List.filter_congr fun n hn => ?_
    rw [Function.comp_apply, hdepth hn]
  rw [hkept]
  refine List.map_congr_left fun n hn => ?_
  rw [Function.comp_apply, NestedChoice.option, hdepth (List.mem_filter.mp hn).1]
  rfl

/-- Nothing is left where the cut is. -/
theorem optionsTo_at_cut (row : List NestedChoice) :
    optionsTo (some depth) fields depth row = [] := by
  rw [optionsTo, List.map_eq_nil_iff, List.filter_eq_nil_iff]
  intro n _ h
  exact absurd (of_decide_eq_true h) (by omega)

end options

/-- What a node yields for the choices below it. -/
def rowBelow (cut : Option Nat) (fields : List String) (depth : Nat) (e : Entity) : Flattened :=
  if e.choices.isEmpty then .options []
  else if cut = some depth then .hidden e.choices.entries.length
  else .options (optionsTo cut fields depth e.choiceRow)

theorem choiceRow_of_isEmpty : ∀ {e : Entity}, e.choices.isEmpty = true → e.choiceRow = []
  | ⟨_, _, ⟨[]⟩, _⟩, _ => by rw [choiceRow, choiceRowFrom]

/-- Without a cut, and above it, a node yields its whole row of options. -/
theorem rowBelow_above {cut : Option Nat} {depth : Nat} (h : ∀ c ∈ cut, depth < c)
    (fields : List String) (e : Entity) :
    rowBelow cut fields depth e = .options (optionsTo cut fields depth e.choiceRow) := by
  have hbelow : cut ≠ some depth := fun heq => Nat.lt_irrefl depth (h depth heq)
  rw [rowBelow, if_neg hbelow]
  split
  case isTrue hempty => rw [choiceRow_of_isEmpty hempty]; rfl
  case isFalse => rfl

/-- What is not cut at a depth goes on below it. -/
theorem lt_of_ne_cut {cut : Option Nat} {depth : Nat} (h : ∀ c ∈ cut, depth ≤ c)
    (hne : cut ≠ some depth) : ∀ c ∈ cut, depth < c := by
  intro c hc
  apply Nat.lt_of_le_of_ne (h c hc)
  rintro rfl
  exact hne hc

/-- The option of a choice and those below it, once what lies below is known. Only right above the
cut the option tells how many choices are left out, if there are any. -/
theorem ofEntity_rowBelow {cut : Option Nat} (fields : List String) (depth : Nat) (key : String)
    (e : Entity) (position : Nat) (h : ∀ c ∈ cut, depth < c) :
    Choice.ofEntity fields depth key e.toFacts (rowBelow cut fields (depth + 1) e) ::
        (rowBelow cut fields (depth + 1) e).toList =
      (NestedChoice.option fields depth ⟨[position], key, e⟩).cutOff cut
          e.choices.entries.length ::
        optionsTo cut fields (depth + 1) e.choiceRow := by
  by_cases hcut : cut = some (depth + 1)
  case pos =>
    subst hcut
    rw [optionsTo_at_cut, rowBelow, if_pos rfl]
    split
    case isTrue hempty =>
      have hnone : ¬0 < e.choices.entries.length := by
        rw [List.isEmpty_iff.mp hempty]
        exact Nat.lt_irrefl 0
      exact congrArg (· :: []) (if_neg fun h => hnone h.2).symm
    case isFalse hsome =>
      have hsome : 0 < e.choices.entries.length :=
        List.length_pos_iff.mpr (by simpa [OrderedMap.isEmpty] using hsome)
      exact congrArg (· :: []) (if_pos ⟨rfl, hsome⟩).symm
  case neg =>
    have hkept : ¬(cut = some (depth + 1) ∧ 0 < e.choices.entries.length) := fun h => hcut h.1
    rw [rowBelow_above (lt_of_ne_cut h hcut)]
    exact congrArg (· :: _) (if_neg hkept).symm

mutual
/-- What flattening yields at a depth that the cut does not lie above. -/
theorem silent_flatten_row (cut : Option Nat) (fields : List String) : ∀ (depth : Nat) (e : Entity),
    (∀ c ∈ cut, depth ≤ c) → Silent (flatten fields cut depth e) (rowBelow cut fields depth e)
  | depth, ⟨facts, components, ⟨choices⟩, units⟩, h => by
      rw [flatten, rowBelow]
      simp only [OrderedMap.isEmpty]
      split
      case isTrue => exact Silent.pure _
      case isFalse =>
        split
        case isTrue => exact Silent.pure _
        case isFalse hbelow =>
          rw [choiceRow]
          exact (silent_flattenEntries_row cut fields depth facts.id 0 choices
            (lt_of_ne_cut h hbelow)).bind (Silent.pure _)
theorem silent_flattenEntries_row (cut : Option Nat) (fields : List String) :
    ∀ (depth : Nat) (parent : String) (first : Nat) (choices : List (String × Entity)),
      (∀ c ∈ cut, depth < c) →
        Silent (flattenEntries fields cut depth parent choices)
          (optionsTo cut fields depth (choiceRowFrom first choices))
  | depth, parent, first, [], _ => Silent.pure _
  | depth, parent, first, (key, e) :: rest, h => by
      have hbelow := silent_flatten_row cut fields (depth + 1) e h
      have hrest := silent_flattenEntries_row cut fields depth parent (first + 1) rest h
      have hfirst : ∀ c ∈ cut, depth + (NestedChoice.mk [first] key e).level < c := h
      rw [flattenEntries, choiceRowFrom, optionsTo_cons _ _ hfirst, optionsTo_append,
        optionsTo_under, ← List.cons_append, ← ofEntity_rowBelow fields depth key e first h]
      exact Silent.warnIf _ (hbelow.bind (Silent.warnIf _ (hrest.bind (Silent.pure _))))
end

/-- Without a cut every choice below a node is an option. -/
theorem run_flatten_whole (fields : List String) (depth : Nat) (e : Entity) (p : Pass) :
    ((flatten fields none depth e).run p).1 =
      .options (e.choiceRow.map (·.option fields depth)) := by
  have habove : ∀ c ∈ (none : Option Nat), depth < c := by
    rintro c ⟨⟩
  rw [(silent_flatten_row none fields depth e fun c hc => Nat.le_of_lt (habove c hc)).run_fst,
    rowBelow_above habove]
  exact congrArg Flattened.options (congrArg (List.map _) (List.filter_eq_self.mpr fun _ _ => rfl))

/-- A cut leaves out the options from its depth on, and changes those right above it. -/
theorem run_flatten_cut (fields : List String) {depth c : Nat} (h : depth < c) (e : Entity)
    (p : Pass) :
    ((flatten fields (some c) depth e).run p).1 =
      .options ((e.choiceRow.filter fun n => (n.option fields depth).depth < c).map fun n =>
        (n.option fields depth).cutOff (some c) n.entity.choices.entries.length) := by
  have habove : ∀ c' ∈ some c, depth < c' := by
    rintro c' ⟨⟩
    exact h
  rw [(silent_flatten_row _ fields depth e fun c' hc => Nat.le_of_lt (habove c' hc)).run_fst,
    rowBelow_above habove]
  rfl

/-- The choices below a node come as a row in the order of the document, each once. Flattening
makes every one of them an option that is as deep as it lies. A cut below the node leaves out the
options from its depth on and keeps the others as they are, but for those right above it, which
tell how many choices are missing below them. A cut at the node leaves no option. -/
theorem flatten_cut_is_projection (fields : List String) (depth : Nat) (e : Entity) (p : Pass) :
    (e.choiceRow.Pairwise fun n m => n.place < m.place) ∧
      (∀ n, n ∈ e.choiceRow ↔ e.choiceAt? n.place = some (n.key, n.entity)) ∧
      (∀ n ∈ e.choiceRow,
        (n.option fields depth).depth = depth + n.level ∧
          (n.option fields depth).indent = String.ofList (List.replicate (depth + n.level) ' ')) ∧
      ((flatten fields none depth e).run p).1 =
        .options (e.choiceRow.map (·.option fields depth)) ∧
      (∀ c, depth < c →
        ((flatten fields (some c) depth e).run p).1 =
          .options ((e.choiceRow.filter fun n => (n.option fields depth).depth < c).map fun n =>
            (n.option fields depth).cutOff (some c) n.entity.choices.entries.length)) ∧
      ((flatten fields (some depth) depth e).run p).1 =
        if e.choices.isEmpty then .options [] else .hidden e.choices.entries.length := by
  refine ⟨pairwise_choiceRow e, fun n => mem_choiceRow_iff, fun n _ => ⟨rfl, rfl⟩,
    run_flatten_whole fields depth e p, fun c h => run_flatten_cut fields h e p, ?_⟩
  have hcut : ∀ c ∈ some depth, depth ≤ c := by
    rintro c ⟨⟩
    exact Nat.le_refl _
  rw [(silent_flatten_row _ fields depth e hcut).run_fst, rowBelow, if_pos rfl]

/-- Hues, some of which have shades. -/
def hues : Entity :=
  { id := "hue"
    choices := ⟨[
      ("red", { id := "red", label := some "Red", choices := ⟨[
        ("pink", { id := "pink", label := some "Pink", choices := ⟨[
          ("rose", { id := "rose", label := some "Rose" })]⟩ }),
        ("wine", { id := "wine", label := some "Wine" })]⟩ }),
      ("blue", { id := "blue", label := some "Blue" })]⟩ }

/-- Of the five hues a cut at depth two leaves four, the first shade of red with a count. -/
theorem cut_hues :
    0 < 2 ∧
      (hues.choiceRow.map fun n => (n.place, n.key)) =
        [([0], "red"), ([0, 0], "pink"), ([0, 0, 0], "rose"), ([0, 1], "wine"), ([1], "blue")] ∧
      (((flatten [] (some 2) 0 hues).run {}).1.toList.map fun c => (c.indent ++ c.label)) =
        ["Red", " Pink (1)", " Wine", "Blue"] := by
  have hcut := (flatten_cut_is_projection [] 0 hues {}).2.2.2.2.1 2 (by decide)
  rw [hcut]
  exact ⟨by decide, by decide +kernel, by decide +kernel⟩

end Entity

end EntryForm

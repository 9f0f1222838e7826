import EntryForm.Form

/-!
# What compiling yields

The compiler is a pass with a counter. `Derives` says which fragments come out of an entity, given
the counter before and after, with one rule for each way a fragment is made. Records and tabs are
added to a fragment one by one, in the order of their ids.
-/

namespace EntryForm

/-- The id that `Pass.nextId` hands out. -/
def idAt (entity : String) (n : Nat) : String := sanitize (entity ++ "_" ++ toString n)

/-- The id that `Pass.nextPanelId` hands out. -/
def panelIdAt (parent branch : String) (n : Nat) : String :=
  "panel_" ++ sanitize (parent ++ "_" ++ branch ++ "_" ++ toString n)

namespace Entity

/-- A fragment before it is filled. -/
def frame (s : Settings) (e : Facts) (wrapped inTab : Bool) (id : String)
    (widget : Widget Fragment) : Fragment :=
  ⟨field s e wrapped inTab id widget, widget, []⟩

/-- A tab set before it has tabs. -/
def tabFrame (s : Settings) (e : Facts) (inTab : Bool) (id : String) : Fragment :=
  ⟨{ field s e true inTab id (.tabs []) with label := none, repetition := none }, .tabs [], []⟩

/-- The tab of a branch. -/
def tabOf (s : Settings) (branch : Facts) (id : String) (active : Bool)
    (fragments : List Fragment) : Tab Fragment :=
  ⟨id, branch.id,
    branch.fieldLabel s (Cardinality.ofBounds branch.minCardinality branch.maxCardinality false),
    active, fragments⟩

/-- Whether the box of a yes-or-no field is checked from the start. -/
def isChecked (e : Facts) : Bool :=
  match e.value with
  | some (.bool b) => b
  | _ => false

/-- The widget of an entity that has neither fields nor branches inside. -/
def leaf? (s : Settings) (e : Entity) (id : String) : Option (Widget Fragment) :=
  match e.kind with
  | .unspecified => some (.placeholder needsValueSpecification)
  | .text _ => some (.text (e.textInput id))
  | .number kind => some (.number (e.numberInput kind id))
  | .dateTime kind => some (.moment (e.momentInput kind id))
  | .boolean => some (.boolean (isChecked e.toFacts))
  | .categorical => some (.select ((selectInput s e).run {}).1)
  | .disjunction => none
  | .grouping => none
  | .unrecognized _ => none

/-- What is wrong with an entity that cannot be shown. -/
def fault? (e : Entity) : Option String :=
  match e.kind with
  | .unrecognized tag => some ("UNRECOGNIZED: " ++ e.id ++ " [" ++ tag ++ "]")
  | .disjunction =>
    if e.components.isEmpty then some ("disjunction " ++ e.id ++ " has no branches") else none
  | _ => none

end Entity

/-- The numbers of the records that a fragment is filled with. -/
def Fragment.missingRecords (f : Fragment) : List Nat :=
  match f.wrapped, Entity.isFillable f.widget, f.cardinality.fixedSlots with
  | true, true, some slots => List.range' 2 (slots - 1)
  | _, _, _ => []

/-- What is compiled, and how far. -/
inductive Source
  | focus (place : Focus)
  /-- An entity, with label and container or without. -/
  | node (e : Entity) (wrapped : Bool)
  | row (entries : List (String × Entity))
  /-- A field that lacks the records with some numbers. -/
  | filling (e : Entity) (wrapped : Bool) (numbers : List Nat)
  /-- A tab set that lacks the tabs of some branches. -/
  | branching (e : Entity) (branches : List (String × Entity))

open Entity in
/-- Which fragments a source yields, inside a tab or not, with the counter before and after. -/
inductive Derives (s : Settings) : Source → Bool → Nat → List Fragment → Nat → Prop
  | missing {id : String} {t : Bool} {n : Nat} : Derives s (.focus (.missing id)) t n [] n
  | found {e : Entity} {t : Bool} {n m : Nat} {fs : List Fragment} :
      Derives s (.node e true) t n fs m → Derives s (.focus (.found e none)) t n fs m
  | unresolved {e : Entity} {segment : String} {t : Bool} {n m : Nat} {fs : List Fragment} :
      Derives s (.node e true) t (n + 1) fs m →
        Derives s (.focus (.found e (some segment))) t n
          (frame s e.toFacts true t (idAt e.id n)
            (.diagnostic ("path segment " ++ segment ++ " not found under " ++ e.id)) :: fs) m
  | none {t : Bool} {n : Nat} : Derives s (.row []) t n [] n
  | more {key : String} {e : Entity} {rest : List (String × Entity)} {t : Bool} {n m k : Nat}
      {fs gs : List Fragment} :
      Derives s (.node e true) t n fs m → Derives s (.row rest) t m gs k →
        Derives s (.row ((key, e) :: rest)) t n (fs ++ gs) k
  | fault {e : Entity} {message : String} {wrapped t : Bool} {n : Nat} :
      e.fault? = some message →
        Derives s (.node e wrapped) t n
          [frame s e.toFacts true t (idAt e.id n) (.diagnostic message)] (n + 1)
  /-- A grouping without children, label or container is the row of its components. -/
  | bare {e : Entity} {wrapped t : Bool} {n m : Nat} {fs : List Fragment} :
      e.kind = .grouping → fs = [] ∨ wrapped = false ∨ e.displayLabel? = some Facts.noLabel →
        Derives s (.row e.components.entries) t n fs m → Derives s (.node e wrapped) t n fs m
  | leaf {e : Entity} {widget : Widget Fragment} {wrapped t : Bool} {n : Nat} :
      e.leaf? s (idAt e.id n) = some widget →
        Derives s
          (.filling e wrapped (frame s e.toFacts wrapped t (idAt e.id n) widget).missingRecords) t n
          [frame s e.toFacts wrapped t (idAt e.id n) widget] (n + 1)
  | group {e : Entity} {t : Bool} {n m : Nat} {children : List Fragment} :
      e.kind = .grouping → children ≠ [] → e.displayLabel? ≠ some Facts.noLabel →
        Derives s (.row e.components.entries) t n children m →
          Derives s
            (.filling e true
              (frame s e.toFacts true t (idAt e.id m) (.group children)).missingRecords) t n
            [frame s e.toFacts true t (idAt e.id m) (.group children)] (m + 1)
  | record {e : Entity} {field : Field} {widget : Widget Fragment}
      {instances : List (Instance Fragment)} {body : List Fragment} {number : Nat}
      {numbers : List Nat} {wrapped t : Bool} {n m k : Nat} :
      Derives s (.filling e wrapped (number :: numbers)) t n [⟨field, widget, instances⟩] m →
        Derives s (.node e false) t (m + 1) body k →
          Derives s (.filling e wrapped numbers) t n
            [⟨field, widget, instances ++
              [⟨idAt (e.id ++ "_record") m, recordHeader number, false, body⟩]⟩] k
  | filled {e : Entity} {wrapped t : Bool} {n m : Nat} {fs : List Fragment} :
      Derives s (.filling e wrapped []) t n fs m → Derives s (.node e wrapped) t n fs m
  | tabSet {e : Entity} {t : Bool} {n : Nat} :
      Derives s (.branching e e.components.entries) t n [tabFrame s e.toFacts t (idAt e.id n)]
        (n + 1)
  | tab {e branch : Entity} {key : String} {branches : List (String × Entity)} {field : Field}
      {row : List (Tab Fragment)} {fs : List Fragment} {t : Bool} {n m k : Nat} :
      Derives s (.branching e ((key, branch) :: branches)) t n [⟨field, .tabs row, []⟩] m →
        Derives s (.node branch true) true (m + 1) fs k →
          Derives s (.branching e branches) t n
            [⟨field, .tabs (row ++
              [tabOf s branch.toFacts (panelIdAt field.id key m) row.isEmpty fs]), []⟩] k
  | tabbed {e : Entity} {wrapped t : Bool} {n m : Nat} {fs : List Fragment} :
      e.kind = .disjunction → e.components.isEmpty = false →
        Derives s (.branching e []) t n fs m → Derives s (.node e wrapped) t n fs m

namespace Pass
variable {α β : Type}

/-- Running two steps is running the first and then the second on what the first leaves. -/
theorem run_bind {m : PassM α} {k : α → PassM β} {a : α} {p p' : Pass} (h : m.run p = (a, p')) :
    (m >>= k).run p = (k a).run p' := by
  rw [StateT.run_bind, h]
  rfl

theorem run_nextId (entity : String) (p : Pass) :
    (nextId entity).run p = (idAt entity p.counter, { p with counter := p.counter + 1 }) := rfl

theorem run_nextPanelId (parent branch : String) (p : Pass) :
    (nextPanelId parent branch).run p =
      (panelIdAt parent branch p.counter, { p with counter := p.counter + 1 }) := rfl

theorem run_inTab (p : Pass) : inTab.run p = (decide (0 < p.tabDepth), p) := rfl

/-- Within a tab the depth of tabs is one more, and afterwards it is what it was. -/
theorem run_withinTab {m : PassM α} {a : α} {p p' : Pass}
    (h : m.run { p with tabDepth := p.tabDepth + 1 } = (a, p')) :
    (withinTab m).run p = (a, { p' with tabDepth := p'.tabDepth - 1 }) := by
  have henter : (modify fun p => { p with tabDepth := p.tabDepth + 1 } : PassM Unit).run p =
      ((), { p with tabDepth := p.tabDepth + 1 }) := rfl
  rw [withinTab, run_bind henter, run_bind h]
  rfl

end Pass

/-- A step that at most warns, and yields a value. -/
def Silent {α : Type} (m : PassM α) (a : α) : Prop :=
  ∀ p : Pass, ∃ warnings, m.run p = (a, { p with warnings })

namespace Silent
variable {α β : Type}

theorem pure (a : α) : Silent (Pure.pure a) a := fun p => ⟨p.warnings, rfl⟩

theorem warn (w : Warning) : Silent (Pass.warn w) () := fun _ => ⟨_, rfl⟩

/-- Silent steps make a silent step. -/
theorem bind {m : PassM α} {k : α → PassM β} {a : α} {b : β} (hm : Silent m a)
    (hk : Silent (k a) b) : Silent (m >>= k) b := by
  intro p
  obtain ⟨warnings, h⟩ := hm p
  obtain ⟨warnings', h'⟩ := hk { p with warnings }
  refine ⟨warnings', ?_⟩
  rw [StateT.run_bind, h]
  exact h'

theorem warnIf {c : Prop} [Decidable c] (w : Warning) {k : Unit → PassM β} {b : β}
    (hk : Silent (k ()) b) :
    Silent (if c then do let r ← Pass.warn w; k r else k ()) b := by
  split
  · exact (warn w).bind hk
  · exact hk

theorem run_fst {m : PassM α} {a : α} (h : Silent m a) (p : Pass) : (m.run p).1 = a := by
  obtain ⟨warnings, hrun⟩ := h p
  rw [hrun]

/-- The value of a step that only warns can be read off any run. -/
theorem of_exists {m : PassM α} (h : ∃ a, Silent m a) : Silent m (m.run {}).1 := by
  obtain ⟨a, h⟩ := h
  rw [h.run_fst]
  exact h

end Silent

namespace Entity

mutual
/-- Flattening choices only warns. -/
theorem silent_flatten (fields : List String) (cut : Option Nat) (depth : Nat) :
    ∀ e : Entity, ∃ below, Silent (flatten fields cut depth e) below
  | ⟨facts, components, ⟨choices⟩, units⟩ => by
      rw [flatten]
      split
      · exact ⟨_, Silent.pure _⟩
      · split
        · exact ⟨_, Silent.pure _⟩
        · obtain ⟨row, hrow⟩ := silent_flattenEntries fields cut depth facts.id choices
          exact ⟨_, hrow.bind (Silent.pure _)⟩
theorem silent_flattenEntries (fields : List String) (cut : Option Nat) (depth : Nat)
    (parent : String) :
    ∀ entries : List (String × Entity),
      ∃ row, Silent (flattenEntries fields cut depth parent entries) row
  | [] => ⟨[], Silent.pure []⟩
  | (key, e) :: rest => by
      obtain ⟨below, hbelow⟩ := silent_flatten fields cut (depth + 1) e
      obtain ⟨row, hrow⟩ := silent_flattenEntries fields cut depth parent rest
      rw [flattenEntries]
      exact ⟨_, Silent.warnIf _ (hbelow.bind (Silent.warnIf _ (hrow.bind (Silent.pure _))))⟩
end

theorem silent_selectInput (s : Settings) (e : Entity) :
    Silent (selectInput s e) ((selectInput s e).run {}).1 := by
  obtain ⟨flat, hflat⟩ := silent_flatten s.synonymFields (e.cutDepth s.defaultCutDepth) 0 e
  exact Silent.of_exists ⟨_, hflat.bind (Silent.pure _)⟩

theorem silent_numberWidget (e : Entity) (kind : NumberKind) (id : String) :
    Silent (numberWidget e kind id) (.number (e.numberInput kind id)) := by
  simp only [numberWidget]
  split
  · exact (Silent.warn _).bind (Silent.pure _)
  · exact Silent.pure _

/-- A step that yields what a source derives, and comes out of the tabs it goes into. -/
def Compiles (s : Settings) (src : Source) (m : PassM (List Fragment)) : Prop :=
  ∀ (p : Pass) (t : Bool), decide (0 < p.tabDepth) = t →
    (m.run p).2.tabDepth = p.tabDepth ∧
      Derives s src t p.counter (m.run p).1 (m.run p).2.counter

variable {s : Settings}

/-- A row of records is compiled by compiling the body once for each, the others from the state that
the first one leaves. -/
theorem compiles_records {e : Entity} {body : PassM (List Fragment)} {field : Field}
    {widget : Widget Fragment} {wrapped t : Bool} {n : Nat} {numbers : List Nat}
    (hbody : Compiles s (.node e false) body) {instances : List (Instance Fragment)} {p : Pass}
    (ht : decide (0 < p.tabDepth) = t)
    (h : Derives s (.filling e wrapped numbers) t n [⟨field, widget, instances⟩] p.counter) :
    let r := (numbers.mapM (recordOf e.toFacts body false)).run p
    r.2.tabDepth = p.tabDepth ∧
      Derives s (.filling e wrapped []) t n [⟨field, widget, instances ++ r.1⟩] r.2.counter := by
  induction numbers generalizing instances p with
  | nil =>
      refine ⟨rfl, ?_⟩
      rw [← List.append_nil instances] at h
      exact h
  | cons number rest ih =>
      obtain ⟨hdepth, hderives⟩ := hbody { p with counter := p.counter + 1 } t ht
      obtain ⟨hdepth', hderives'⟩ := @ih _ ((recordOf e.toFacts body false number).run p).2
        ((congrArg (fun depth => decide (0 < depth)) hdepth).trans ht) (h.record hderives)
      rw [List.append_assoc] at hderives'
      rw [List.mapM_cons]
      exact ⟨hdepth'.trans hdepth, hderives'⟩

/-- A fragment without body is its frame, with the next id. -/
theorem run_fragment_none {e : Facts} {make : String → PassM (Widget Fragment)}
    {widget : Widget Fragment} {p : Pass}
    (hwidget : Silent (make (idAt e.id p.counter)) widget) :
    ∃ warnings, (fragment s e none make).run p =
      (frame s e false (decide (0 < p.tabDepth)) (idAt e.id p.counter) widget,
        { p with counter := p.counter + 1, warnings }) := by
  obtain ⟨warnings, hrun⟩ := hwidget { p with counter := p.counter + 1 }
  refine ⟨warnings, ?_⟩
  rw [fragment, Pass.run_bind (Pass.run_nextId e.id p), Pass.run_bind hrun]
  rfl

/-- A fragment with a body is its frame, with the records that it lacks. -/
theorem run_fragment_some {e : Facts} (body : PassM (List Fragment))
    (make : String → PassM (Widget Fragment)) {widget : Widget Fragment} {p : Pass}
    (hwidget : Silent (make (idAt e.id p.counter)) widget) :
    let f := frame s e true (decide (0 < p.tabDepth)) (idAt e.id p.counter) widget
    ∃ warnings, (fragment s e (some body) make).run p =
      ((f.missingRecords.mapM (recordOf e body false)) >>= fun instances =>
        pure { f with instances }).run { p with counter := p.counter + 1, warnings } := by
  obtain ⟨warnings, hrun⟩ := hwidget { p with counter := p.counter + 1 }
  refine ⟨warnings, ?_⟩
  rw [fragment, Pass.run_bind (Pass.run_nextId e.id p), Pass.run_bind hrun,
    Pass.run_bind (Pass.run_inTab _)]
  have hwrapped (widget : Widget Fragment) (id : String) (t : Bool) :
      (field s e true t id widget).wrapped = true := rfl
  simp only [Fragment.missingRecords, frame, hwrapped, Option.isSome_some]
  split <;> split <;> simp_all

/-- A fragment around a widget yields what an entity does, given where filling it starts. -/
theorem compiles_fragment {e : Entity} {body : Option (PassM (List Fragment))}
    (make : String → PassM (Widget Fragment)) {widget : Widget Fragment} {n : Nat} {t : Bool}
    {p : Pass} (hbody : ∀ b ∈ body, Compiles s (.node e false) b)
    (hwidget : Silent (make (idAt e.id p.counter)) widget) (ht : decide (0 < p.tabDepth) = t)
    (h : Derives s
      (.filling e body.isSome
        (frame s e.toFacts body.isSome t (idAt e.id p.counter) widget).missingRecords) t n
      [frame s e.toFacts body.isSome t (idAt e.id p.counter) widget] (p.counter + 1)) :
    let r := (fragment s e.toFacts body make).run p
    r.2.tabDepth = p.tabDepth ∧ Derives s (.node e body.isSome) t n [r.1] r.2.counter := by
  subst ht
  cases body with
  | none =>
      obtain ⟨warnings, hrun⟩ := run_fragment_none (s := s) hwidget
      rw [hrun]
      exact ⟨rfl, h.filled⟩
  | some body =>
      obtain ⟨warnings, hrun⟩ := run_fragment_some (s := s) body make hwidget
      obtain ⟨hdepth, hderives⟩ := compiles_records (hbody body rfl)
        (p := { p with counter := p.counter + 1, warnings }) rfl h
      rw [hrun]
      exact ⟨hdepth, hderives.filled⟩

/-- A diagnostic is never filled. -/
theorem run_diagnostic (e : Facts) (message : String) (p : Pass) :
    ∃ warnings, (diagnostic s e message).run p =
      (frame s e true (decide (0 < p.tabDepth)) (idAt e.id p.counter) (.diagnostic message),
        { p with counter := p.counter + 1, warnings }) := by
  exact run_fragment_some (pure []) (fun _ => pure (.diagnostic message)) (Silent.pure _)

/-- What the branches of a tab set add to it. -/
def CompilesTabs (s : Settings) (e : Entity) (branches : List (String × Entity)) (first : Bool)
    (tabs : String → PassM (List (Tab Fragment))) : Prop :=
  ∀ (field : Field) (row : List (Tab Fragment)) (n : Nat) (t : Bool) (p : Pass),
    row.isEmpty = first → decide (0 < p.tabDepth) = t →
      Derives s (.branching e branches) t n [⟨field, .tabs row, []⟩] p.counter →
        let r := (tabs field.id).run p
        r.2.tabDepth = p.tabDepth ∧
          Derives s (.branching e []) t n [⟨field, .tabs (row ++ r.1), []⟩] r.2.counter

theorem compiles_tabSet {e : Entity} {tabs : String → PassM (List (Tab Fragment))} {t : Bool}
    {p : Pass} (htabs : CompilesTabs s e e.components.entries true tabs)
    (ht : decide (0 < p.tabDepth) = t) :
    let r := (tabSet s e.toFacts tabs).run p
    r.2.tabDepth = p.tabDepth ∧ Derives s (.branching e []) t p.counter [r.1] r.2.counter := by
  obtain ⟨warnings, hrun⟩ := run_fragment_some (s := s) (e := e.toFacts) (p := p) (pure [])
    (fun _ => pure (.tabs [])) (Silent.pure (Widget.tabs []))
  subst ht
  have htabs := htabs _ _ _ _ { p with counter := p.counter + 1, warnings } rfl rfl
    (Derives.tabSet (s := s) (e := e) (t := decide (0 < p.tabDepth)) (n := p.counter))
  rw [tabSet, Pass.run_bind (hrun.trans rfl)]
  exact htabs

theorem Compiles.warn {src : Source} {m : PassM (List Fragment)} (h : Compiles s src m)
    (w : Warning) : Compiles s src (do Pass.warn w; m) :=
  fun p t ht => h { p with warnings := p.warnings ++ [w] } t ht

theorem Compiles.warnIf {src : Source} {c : Prop} [Decidable c] {w : Warning}
    {m : Unit → PassM (List Fragment)} (h : Compiles s src (m ())) :
    Compiles s src (if c then do let r ← Pass.warn w; m r else m ()) := by
  split
  · exact h.warn w
  · exact h

/-- An entity that has neither fields nor branches inside is one fragment. -/
theorem compiles_leaf {e : Entity} {body : Option (PassM (List Fragment))}
    {make : String → PassM (Widget Fragment)} (hbody : ∀ b ∈ body, Compiles s (.node e false) b)
    (h : ∀ id, ∃ widget, e.leaf? s id = some widget ∧ Silent (make id) widget) :
    Compiles s (.node e body.isSome) (do pure [← fragment s e.toFacts body make]) := by
  intro p t ht
  obtain ⟨widget, hleaf, hwidget⟩ := h (idAt e.id p.counter)
  exact compiles_fragment make hbody hwidget ht (.leaf hleaf)

/-- A group is compiled with its components inside. -/
theorem compiles_grouping {e : Entity} {components : PassM (List Fragment)}
    {body : Option (PassM (List Fragment))} (hkind : e.kind = .grouping)
    (hcomponents : Compiles s (.row e.components.entries) components)
    (hbody : ∀ b ∈ body, Compiles s (.node e false) b) :
    Compiles s (.node e body.isSome) (do
      let children ← components
      if children.isEmpty || body.isNone || e.displayLabel? = some Facts.noLabel then pure children
      else do pure [← fragment s e.toFacts body fun _ => pure (.group children)]) := by
  intro p t ht
  obtain ⟨hdepth, hderives⟩ := hcomponents p t ht
  generalize hrun : components.run p = r at hdepth hderives
  obtain ⟨children, p'⟩ := r
  rw [Pass.run_bind hrun]
  split
  case isTrue hbare =>
    refine ⟨hdepth, .bare hkind ?_ hderives⟩
    simp only [Bool.or_eq_true, List.isEmpty_iff, decide_eq_true_eq] at hbare
    rcases hbare with (hempty | hbody) | hlabel
    · exact Or.inl hempty
    · exact Or.inr (Or.inl (by simpa using hbody))
    · exact Or.inr (Or.inr hlabel)
  case isFalse hgroup =>
    simp only [Bool.or_eq_true, List.isEmpty_iff, decide_eq_true_eq, not_or] at hgroup
    obtain ⟨⟨hempty, hsome⟩, hlabel⟩ := hgroup
    have hsome : body.isSome = true := by
      cases body with
      | none => exact absurd rfl hsome
      | some b => rfl
    have hstart : Derives s _ t p.counter _ (p'.counter + 1) :=
      .group hkind hempty hlabel hderives
    rw [← hsome] at hstart
    obtain ⟨hdepth', hderives'⟩ := compiles_fragment (fun _ => pure (.group children)) hbody
      (Silent.pure _) ((congrArg (fun depth => decide (0 < depth)) hdepth).trans ht) hstart
    exact ⟨hdepth'.trans hdepth, hderives'⟩

theorem compiles_fault {e : Entity} {message : String} (h : e.fault? = some message)
    (wrapped : Bool) :
    Compiles s (.node e wrapped) (do pure [← diagnostic s e.toFacts message]) := by
  rintro p t rfl
  obtain ⟨warnings, hrun⟩ := run_diagnostic (s := s) e.toFacts message p
  rw [Pass.run_bind hrun]
  exact ⟨rfl, .fault h⟩

/-- A disjunction is compiled to a tab set, or to a notice if it has no branches. -/
theorem compiles_disjunction {e : Entity} {tabs : String → PassM (List (Tab Fragment))}
    (hkind : e.kind = .disjunction) (htabs : CompilesTabs s e e.components.entries true tabs)
    (wrapped : Bool) : Compiles s (.node e wrapped) (do pure [← disjunction s e tabs]) := by
  rw [disjunction]
  split
  case isTrue hempty =>
    have hfault : e.fault? = some ("disjunction " ++ e.id ++ " has no branches") := by
      simp only [fault?, hkind, hempty, if_true]
    exact (compiles_fault hfault wrapped).warn _
  case isFalse hbranches =>
    intro p t ht
    obtain ⟨hdepth, hderives⟩ := compiles_tabSet htabs ht
    exact ⟨hdepth, .tabbed hkind (by simpa using hbranches) hderives⟩

/-- A node is compiled as its kind asks for, if what it is put together of is compiled so. -/
theorem compiles_node {e : Entity} {components : PassM (List Fragment)}
    {tabs : String → PassM (List (Tab Fragment))} {body : Option (PassM (List Fragment))}
    (hcomponents : Compiles s (.row e.components.entries) components)
    (htabs : CompilesTabs s e e.components.entries true tabs)
    (hbody : ∀ b ∈ body, Compiles s (.node e false) b) :
    Compiles s (.node e body.isSome) (node s e components tabs body) := by
  rw [node]
  apply Compiles.warnIf
  split
  case _ hkind => exact compiles_disjunction hkind htabs _
  case _ hkind => exact compiles_grouping hkind hcomponents hbody
  case _ hkind =>
    exact compiles_leaf hbody fun id => ⟨_, by simp only [leaf?, hkind], Silent.pure _⟩
  case _ tag hkind =>
    exact (compiles_fault (by simp only [fault?, hkind]) _).warn _
  case _ type hkind =>
    exact compiles_leaf hbody fun id => ⟨_, by simp only [leaf?, hkind], Silent.pure _⟩
  case _ kind hkind =>
    exact compiles_leaf hbody fun id => ⟨_, by simp only [leaf?, hkind],
      silent_numberWidget e kind id⟩
  case _ kind hkind =>
    exact compiles_leaf hbody fun id => ⟨_, by simp only [leaf?, hkind], Silent.pure _⟩
  case _ hkind =>
    exact compiles_leaf hbody fun id => ⟨.boolean (isChecked e.toFacts),
      by simp only [leaf?, hkind], Silent.pure _⟩
  case _ hkind =>
    exact compiles_leaf hbody fun id => ⟨_, by simp only [leaf?, hkind],
      (silent_selectInput s e).bind (Silent.pure _)⟩

theorem compiles_node_bare {e : Entity} {components : PassM (List Fragment)}
    {tabs : String → PassM (List (Tab Fragment))}
    (hcomponents : Compiles s (.row e.components.entries) components)
    (htabs : CompilesTabs s e e.components.entries true tabs) :
    Compiles s (.node e false) (bareNode s e components tabs) :=
  compiles_node hcomponents htabs nofun

mutual
/-- Compiling an entity derives what it gives. -/
theorem compile_derives (s : Settings) :
    ∀ e : Entity, Compiles s (.node e true) (compile s e)
  | ⟨facts, ⟨components⟩, choices, units⟩ => by
      have hrow := compileAll_derives s components
      have htabs := compileTabs_derives s ⟨facts, ⟨components⟩, choices, units⟩ components true
      have hbody := compiles_node_bare hrow htabs
      rw [compile]
      exact compiles_node hrow htabs (by rintro b ⟨⟩; exact hbody)
theorem compileAll_derives (s : Settings) :
    ∀ entries : List (String × Entity), Compiles s (.row entries) (compileAll s entries)
  | [] => fun p t ht => ⟨rfl, .none⟩
  | (key, e) :: rest => by
      intro p t ht
      obtain ⟨hdepth, hderives⟩ := compile_derives s e p t ht
      obtain ⟨hdepth', hderives'⟩ := compileAll_derives s rest ((compile s e).run p).2 t
        ((congrArg (fun depth => decide (0 < depth)) hdepth).trans ht)
      rw [compileAll]
      exact ⟨hdepth'.trans hdepth, hderives.more hderives'⟩
/-- Compiling the branches of a disjunction derives their tabs. -/
theorem compileTabs_derives (s : Settings) (e : Entity) :
    ∀ (branches : List (String × Entity)) (first : Bool),
      CompilesTabs s e branches first (compileTabs s branches first)
  | [], first => by
      intro field row n t p hfirst ht h
      rw [← List.append_nil row] at h
      exact ⟨rfl, h⟩
  | (key, branch) :: rest, first => by
      rintro field row n t p rfl ht h
      obtain ⟨hdepth, hderives⟩ := compile_derives s branch
        { p with counter := p.counter + 1, tabDepth := p.tabDepth + 1 } true (by simp)
      generalize hrun : (compile s branch).run
        { p with counter := p.counter + 1, tabDepth := p.tabDepth + 1 } = r at hdepth hderives
      obtain ⟨fragments, p'⟩ := r
      have hwithin := Pass.run_withinTab (p := { p with counter := p.counter + 1 }) hrun
      have hback : p'.tabDepth - 1 = p.tabDepth := by
        simp only at hdepth
        omega
      obtain ⟨hdepth', hderives'⟩ := compileTabs_derives s e rest false field _ n t
        { p' with tabDepth := p'.tabDepth - 1 } (by simp)
        ((congrArg (fun depth => decide (0 < depth)) hback).trans ht) (h.tab hderives)
      rw [List.append_assoc] at hderives'
      rw [compileTabs, Pass.run_bind (Pass.run_nextPanelId _ _ p), Pass.run_bind hwithin]
      exact ⟨hdepth'.trans hback, hderives'⟩
end

theorem compileBody_derives (s : Settings) (e : Entity) :
    Compiles s (.node e false) (compileBody s e) := by
  have hrow := compileAll_derives s e.components.entries
  have htabs := compileTabs_derives s e e.components.entries true
  exact compiles_node_bare hrow htabs

end Entity

namespace Form

/-- Compiling what a focus leads to derives what it gives. -/
theorem compileFocus_derives (s : Settings) (d : Document) (focus : String) :
    Entity.Compiles s (.focus (d.focus focus)) (compileFocus s d focus) := by
  rw [compileFocus]
  split
  case _ id hfocus =>
    rw [hfocus]
    exact fun p t ht => ⟨rfl, .missing⟩
  case _ e hfocus =>
    rw [hfocus]
    intro p t ht
    obtain ⟨hdepth, hderives⟩ := Entity.compile_derives s e p t ht
    exact ⟨hdepth, .found hderives⟩
  case _ e segment hfocus =>
    rw [hfocus]
    apply Entity.Compiles.warn
    rintro p t rfl
    obtain ⟨warnings, hrun⟩ := Entity.run_diagnostic (s := s) e.toFacts
      ("path segment " ++ segment ++ " not found under " ++ e.id) p
    obtain ⟨hdepth, hderives⟩ := Entity.compile_derives s e
      { p with counter := p.counter + 1, warnings } _ rfl
    rw [Pass.run_bind hrun]
    exact ⟨hdepth, .unresolved hderives⟩

/-- The form of a focus is derived from where the focus leads. -/
theorem compile_derives (s : Settings) (d : Document) (focus : String) (generation : Nat) :
    let form := (compile s d focus generation).1
    Derives s (.focus (d.focus focus)) false 0 form.fragments form.counter := by
  intro form
  rw [fragments_compile]
  exact (compileFocus_derives s d focus {} false rfl).2

end Form

end EntryForm

import EntryForm.Proofs.Derivation

/-!
# Entities compiled among others

A pass hands an entity the ids that come next, and knows whether a tab lies around it. Nothing else
of what has been compiled before reaches the entity: without their ids its fragments are the same in
every place, inside tabs and outside, and the pass moves on by as many ids. So the components of a
grouping and the branches of a disjunction yield what each yields alone.
-/

namespace EntryForm

/-- The same choice of units, without the id of its control. -/
def UnitSelector.withoutId : UnitSelector → UnitSelector
  | .choice _ options => .choice "" options
  | units => units

theorem UnitSelector.ofEntity_withoutId (e : Entity) (id id' : String) :
    (ofEntity e id).withoutId = (ofEntity e id').withoutId := by
  rw [ofEntity, ofEntity]
  split <;> rfl

namespace Fragment

mutual
/-- A fragment without the ids that a pass hands out. -/
def withoutIds : Fragment → Fragment
  | ⟨field, widget, instances⟩ =>
    ⟨{ field with id := "" }, widgetWithoutIds widget, instancesWithoutIds instances⟩
/-- The widget without the ids of what is inside it. -/
def widgetWithoutIds : Widget Fragment → Widget Fragment
  | .placeholder message => .placeholder message
  | .diagnostic message => .diagnostic message
  | .group children => .group (rowWithoutIds children)
  | .tabs tabs => .tabs (tabsWithoutIds tabs)
  | .text input => .text { input with units := input.units.withoutId }
  | .number input => .number { input with units := input.units.withoutId }
  | .moment input => .moment { input with units := input.units.withoutId }
  | .boolean checked => .boolean checked
  | .select input => .select input
def rowWithoutIds : List Fragment → List Fragment
  | [] => []
  | f :: rest => withoutIds f :: rowWithoutIds rest
def tabsWithoutIds : List (Tab Fragment) → List (Tab Fragment)
  | [] => []
  | ⟨_, entityId, label, active, fragments⟩ :: rest =>
    ⟨"", entityId, label, active, rowWithoutIds fragments⟩ :: tabsWithoutIds rest
def instancesWithoutIds : List (Instance Fragment) → List (Instance Fragment)
  | [] => []
  | ⟨_, header, removable, fragments⟩ :: rest =>
    ⟨"", header, removable, rowWithoutIds fragments⟩ :: instancesWithoutIds rest
end

theorem rowWithoutIds_eq (fragments : List Fragment) :
    rowWithoutIds fragments = fragments.map withoutIds := by
  induction fragments with
  | nil => rfl
  | cons f rest ih => rw [rowWithoutIds, ih, List.map_cons]

theorem rowWithoutIds_append (xs ys : List Fragment) :
    rowWithoutIds (xs ++ ys) = rowWithoutIds xs ++ rowWithoutIds ys := by
  rw [rowWithoutIds_eq, rowWithoutIds_eq, rowWithoutIds_eq, List.map_append]

theorem rowWithoutIds_isEmpty (fragments : List Fragment) :
    (rowWithoutIds fragments).isEmpty = fragments.isEmpty := by
  rw [rowWithoutIds_eq, List.isEmpty_map]

theorem widgetWithoutIds_isInput (w : Widget Fragment) :
    (widgetWithoutIds w).isInput = w.isInput := by
  cases w <;> rfl

theorem widgetWithoutIds_isSelect (w : Widget Fragment) :
    (widgetWithoutIds w).isSelect = w.isSelect := by
  cases w <;> rfl

theorem widgetWithoutIds_isGroup (w : Widget Fragment) :
    (widgetWithoutIds w).isGroup = w.isGroup := by
  cases w <;> rfl

end Fragment

/-- One more instance without the ids that a pass hands out. -/
def Instance.withoutIds (i : Instance Fragment) : Instance Fragment :=
  ⟨"", i.header, i.removable, Fragment.rowWithoutIds i.fragments⟩

theorem Fragment.instancesWithoutIds_eq (instances : List (Instance Fragment)) :
    instancesWithoutIds instances = instances.map Instance.withoutIds := by
  induction instances with
  | nil => rfl
  | cons i rest ih => rw [instancesWithoutIds, ih, List.map_cons, Instance.withoutIds]

namespace Pass
variable {α β γ δ : Type}

/-- A pass that has handed out some more ids, and warned some more. -/
def grown (p : Pass) (ids : Nat) (warnings : List Warning) : Pass :=
  { p with counter := p.counter + ids, warnings := p.warnings ++ warnings }

theorem grown_nil (p : Pass) (ids : Nat) :
    p.grown ids [] = { p with counter := p.counter + ids } := by
  rw [grown, List.append_nil]

theorem grown_grown (p : Pass) (ids ids' : Nat) (warnings warnings' : List Warning) :
    (p.grown ids warnings).grown ids' warnings' = p.grown (ids + ids') (warnings ++ warnings') := by
  rw [grown, grown, grown, Nat.add_assoc, List.append_assoc]

/-- Steps that yield what looks the same and let the pass grow alike, wherever both are taken inside
tabs or both outside. -/
def Parallel (look : α → β) (m m' : PassM α) : Prop :=
  ∀ p p' : Pass, (0 < p.tabDepth ↔ 0 < p'.tabDepth) →
    look (m.run p).1 = look (m'.run p').1 ∧
      ∃ ids warnings,
        (m.run p).2 = p.grown ids warnings ∧ (m'.run p').2 = p'.grown ids warnings

namespace Parallel
variable {look : α → β} {look' : γ → δ} {m m' : PassM α}

theorem pure {a a' : α} (h : look a = look a') : Parallel look (Pure.pure a) (Pure.pure a') :=
  fun p p' _ => ⟨h, 0, [], (grown_nil p 0).symm, (grown_nil p' 0).symm⟩

/-- Parallel steps go on in parallel if what they go on with depends only on what is looked at. -/
theorem bind {k k' : α → PassM γ} (hm : Parallel look m m')
    (hk : ∀ a a', look a = look a' → Parallel look' (k a) (k' a')) :
    Parallel look' (m >>= k) (m' >>= k') := by
  intro p p' htab
  obtain ⟨hlook, ids, warnings, hrun, hrun'⟩ := hm p p' htab
  obtain ⟨hlook', ids', warnings', hthen, hthen'⟩ :=
    hk _ _ hlook (p.grown ids warnings) (p'.grown ids warnings) htab
  rw [StateT.run_bind, StateT.run_bind]
  refine ⟨?_, ids + ids', warnings ++ warnings', ?_, ?_⟩
  · rw [← hrun, ← hrun'] at hlook'
    exact hlook'
  · rw [← grown_grown, ← hthen, ← hrun]
    rfl
  · rw [← grown_grown, ← hthen', ← hrun']
    rfl

/-- Steps that yield the same. -/
theorem bind_eq {k k' : α → PassM γ} (hm : Parallel (fun a => a) m m')
    (hk : ∀ a, Parallel look' (k a) (k' a)) : Parallel look' (m >>= k) (m' >>= k') :=
  hm.bind fun a a' (h : a = a') => h ▸ hk a

theorem warn (w : Warning) : Parallel (fun _ => ()) (Pass.warn w) (Pass.warn w) :=
  fun _ _ _ => ⟨rfl, 0, [w], rfl, rfl⟩

theorem warnIf {c : Prop} [Decidable c] (w : Warning) {k k' : Unit → PassM α}
    (h : Parallel look (k ()) (k' ())) :
    Parallel look (if c then do let r ← Pass.warn w; k r else k ())
      (if c then do let r ← Pass.warn w; k' r else k' ()) := by
  split
  · exact (warn w).bind fun _ _ _ => h
  · exact h

theorem withinTab (h : Parallel look m m') :
    Parallel look (Pass.withinTab m) (Pass.withinTab m') := by
  intro p p' _
  obtain ⟨hlook, ids, warnings, hrun, hrun'⟩ := h { p with tabDepth := p.tabDepth + 1 }
    { p' with tabDepth := p'.tabDepth + 1 } (by simp)
  rw [run_withinTab (Prod.eta _).symm, run_withinTab (Prod.eta _).symm, hrun, hrun']
  exact ⟨hlook, ids, warnings, rfl, rfl⟩

theorem mapM {k k' : γ → PassM α} (h : ∀ c, Parallel look (k c) (k' c)) (cs : List γ) :
    Parallel (List.map look) (cs.mapM k) (cs.mapM k') := by
  induction cs with
  | nil => exact .pure rfl
  | cons c rest ih =>
      rw [List.mapM_cons, List.mapM_cons]
      refine (h c).bind fun a a' ha => ih.bind fun as as' has => .pure ?_
      rw [List.map_cons, List.map_cons, ha, has]

end Parallel

/-- An id that is handed out is not looked at. -/
theorem parallel_nextId (entity : String) :
    Parallel (fun _ => ()) (nextId entity) (nextId entity) :=
  fun p p' _ => ⟨rfl, 1, [], (grown_nil p 1).symm, (grown_nil p' 1).symm⟩

theorem parallel_nextPanelId (parent parent' branch : String) :
    Parallel (fun _ => ()) (nextPanelId parent branch) (nextPanelId parent' branch) :=
  fun p p' _ => ⟨rfl, 1, [], (grown_nil p 1).symm, (grown_nil p' 1).symm⟩

theorem parallel_inTab : Parallel (fun t => t) inTab inTab := by
  intro p p' htab
  rw [run_inTab, run_inTab]
  exact ⟨decide_eq_decide.mpr htab, 0, [], (grown_nil p 0).symm, (grown_nil p' 0).symm⟩

end Pass

namespace Entity
open Fragment Pass

variable {s : Settings}

mutual
theorem parallel_flatten (fields : List String) (cut : Option Nat) (depth : Nat) : ∀ e : Entity,
    Parallel (fun below => below) (flatten fields cut depth e) (flatten fields cut depth e)
  | ⟨facts, components, ⟨choices⟩, units⟩ => by
      rw [flatten]
      split
      · exact .pure rfl
      · split
        · exact .pure rfl
        · exact (parallel_flattenEntries fields cut depth facts.id choices).bind_eq fun _ =>
            .pure rfl
theorem parallel_flattenEntries (fields : List String) (cut : Option Nat) (depth : Nat)
    (parent : String) : ∀ entries : List (String × Entity),
    Parallel (fun row => row) (flattenEntries fields cut depth parent entries)
      (flattenEntries fields cut depth parent entries)
  | [] => .pure rfl
  | (key, e) :: rest => by
      rw [flattenEntries]
      refine .warnIf _ ((parallel_flatten fields cut (depth + 1) e).bind_eq fun below => ?_)
      exact .warnIf _ ((parallel_flattenEntries fields cut depth parent rest).bind_eq fun _ =>
        .pure rfl)
end

theorem parallel_selectInput (e : Entity) :
    Parallel (fun input => input) (selectInput s e) (selectInput s e) :=
  (parallel_flatten _ _ _ e).bind_eq fun _ => .pure rfl

theorem parallel_numberWidget (e : Entity) (kind : NumberKind) (id id' : String) :
    Parallel widgetWithoutIds (numberWidget e kind id) (numberWidget e kind id') := by
  have hwidget : Parallel widgetWithoutIds (pure (.number (e.numberInput kind id)))
      (pure (.number (e.numberInput kind id'))) := by
    apply Parallel.pure
    simp only [widgetWithoutIds, numberInput, UnitSelector.ofEntity_withoutId e id id']
  have hrange (id : String) : (e.numberInput kind id).range.crossed? =
      ((Range.ofKind kind).narrow e.range).crossed? := rfl
  simp only [numberWidget, hrange]
  split
  · exact (Parallel.warn _).bind fun _ _ _ => hwidget
  · exact hwidget

/-- A record is compiled in parallel if its body is. -/
theorem parallel_recordOf {e : Facts} {body : PassM (List Fragment)}
    (hbody : Parallel rowWithoutIds body body) (removable : Bool) (number : Nat) :
    Parallel Instance.withoutIds (recordOf e body removable number)
      (recordOf e body removable number) := by
  refine (parallel_nextId _).bind fun id id' _ => hbody.bind fun fs gs hrow => .pure ?_
  simp only [Instance.withoutIds, hrow]

/-- But for its id, a field sees of its widget only which sort it is of. -/
theorem field_withoutId {widget widget' : Widget Fragment}
    (hinput : widget.isInput = widget'.isInput) (hselect : widget.isSelect = widget'.isSelect)
    (e : Facts) (wrapped t : Bool) (id id' : String) :
    { field s e wrapped t id widget with id := "" } =
      { field s e wrapped t id' widget' with id := "" } := by
  simp only [field, hinput, hselect]
  rfl

/-- A fragment is compiled in parallel if its widget and its body are. The records are counted by
the bounds and the sort of the widget, which both fragments share. -/
theorem parallel_fragment {e : Facts} {body : Option (PassM (List Fragment))}
    {make make' : String → PassM (Widget Fragment)}
    (hbody : ∀ b ∈ body, Parallel rowWithoutIds b b)
    (hmake : ∀ id id', Parallel widgetWithoutIds (make id) (make' id')) :
    Parallel withoutIds (fragment s e body make) (fragment s e body make') := by
  refine (parallel_nextId e.id).bind fun id id' _ => ?_
  refine (hmake id id').bind fun w w' hw => parallel_inTab.bind_eq fun t => ?_
  have hinput : w.isInput = w'.isInput := by
    rw [← widgetWithoutIds_isInput w, hw, widgetWithoutIds_isInput]
  have hselect : w.isSelect = w'.isSelect := by
    rw [← widgetWithoutIds_isSelect w, hw, widgetWithoutIds_isSelect]
  have hgroup : w.isGroup = w'.isGroup := by
    rw [← widgetWithoutIds_isGroup w, hw, widgetWithoutIds_isGroup]
  have hfillable : isFillable w = isFillable w' := by
    rw [isFillable, isFillable, hinput, hselect, hgroup]
  have hfield (wrapped : Bool) := field_withoutId (s := s) hinput hselect e wrapped t id id'
  have hslots (wrapped : Bool) : (field s e wrapped t id w).cardinality.fixedSlots =
      (field s e wrapped t id' w').cardinality.fixedSlots :=
    congrArg (·.cardinality.fixedSlots) (hfield wrapped)
  have hwhole (wrapped : Bool) {instances instances' : List (Instance Fragment)}
      (h : instances.map Instance.withoutIds = instances'.map Instance.withoutIds) :
      withoutIds ⟨field s e wrapped t id w, w, instances⟩ =
        withoutIds ⟨field s e wrapped t id' w', w', instances'⟩ := by
    rw [withoutIds, withoutIds, hfield, hw, instancesWithoutIds_eq, instancesWithoutIds_eq, h]
  cases body with
  | none => exact .pure (hwhole false rfl)
  | some body =>
      have hrecords (numbers : List Nat) :=
        Parallel.mapM (parallel_recordOf (e := e) (hbody body rfl) false) numbers
      simp only [Option.isSome_some, hfillable, hslots]
      cases isFillable w' with
      | false => exact .pure (hwhole true rfl)
      | true =>
          cases (field s e true t id' w').cardinality.fixedSlots with
          | none => exact .pure (hwhole true rfl)
          | some slots => exact (hrecords _).bind fun is js h => .pure (hwhole true h)

theorem parallel_diagnostic (e : Facts) (message : String) :
    Parallel withoutIds (diagnostic s e message) (diagnostic s e message) :=
  parallel_fragment (by rintro b ⟨⟩; exact .pure rfl) fun _ _ => .pure rfl

theorem parallel_tabSet {e : Facts} {tabs : String → PassM (List (Tab Fragment))}
    (htabs : ∀ id id', Parallel tabsWithoutIds (tabs id) (tabs id')) :
    Parallel withoutIds (tabSet s e tabs) (tabSet s e tabs) := by
  have hframe : Parallel withoutIds
      (fragment s e (some (pure [])) fun _ => pure (.tabs []))
      (fragment s e (some (pure [])) fun _ => pure (.tabs [])) :=
    parallel_fragment (by rintro b ⟨⟩; exact .pure rfl) fun _ _ => .pure rfl
  refine hframe.bind fun frame frame' hframe =>
    (htabs _ _).bind fun row row' hrow => .pure ?_
  obtain ⟨field, widget, instances⟩ := frame
  obtain ⟨field', widget', instances'⟩ := frame'
  have hfield : { field with id := "" } = { field' with id := "" } :=
    congrArg (·.toField) hframe
  have hfixed := congrArg (fun f : Field => { f with label := none, repetition := none }) hfield
  simp only [withoutIds, widgetWithoutIds, hrow]
  exact congrArg (fun f => Fragment.mk f _ _) hfixed

theorem parallel_disjunction {e : Entity} {tabs : String → PassM (List (Tab Fragment))}
    (htabs : ∀ id id', Parallel tabsWithoutIds (tabs id) (tabs id')) :
    Parallel withoutIds (disjunction s e tabs) (disjunction s e tabs) := by
  rw [disjunction]
  split
  · exact (Parallel.warn _).bind fun _ _ _ => parallel_diagnostic _ _
  · exact parallel_tabSet htabs

theorem parallel_singleton {m m' : PassM Fragment} (h : Parallel withoutIds m m') :
    Parallel rowWithoutIds (do pure [← m]) (do pure [← m']) :=
  h.bind fun f g hsame => .pure (by rw [rowWithoutIds, hsame]; rfl)

section
variable {e : Entity} {components : PassM (List Fragment)}
  {tabs : String → PassM (List (Tab Fragment))}

/-- A node is compiled in parallel if what it is put together of is. -/
theorem parallel_node {body : Option (PassM (List Fragment))}
    (hcomponents : Parallel rowWithoutIds components components)
    (htabs : ∀ id id', Parallel tabsWithoutIds (tabs id) (tabs id'))
    (hbody : ∀ b ∈ body, Parallel rowWithoutIds b b) :
    Parallel rowWithoutIds (node s e components tabs body) (node s e components tabs body) := by
  have hsingle {make make' : String → PassM (Widget Fragment)}
      (hmake : ∀ id id', Parallel widgetWithoutIds (make id) (make' id')) :
      Parallel rowWithoutIds (do pure [← fragment s e.toFacts body make])
        (do pure [← fragment s e.toFacts body make']) :=
    parallel_singleton (parallel_fragment hbody hmake)
  have hunits := UnitSelector.ofEntity_withoutId e
  rw [node]
  apply Parallel.warnIf
  generalize e.kind = kind
  cases kind with
  | disjunction => exact parallel_singleton (parallel_disjunction htabs)
  | grouping =>
      refine hcomponents.bind fun fs gs hrow => ?_
      have hempty : fs.isEmpty = gs.isEmpty := by
        rw [← rowWithoutIds_isEmpty fs, hrow, rowWithoutIds_isEmpty]
      simp only [hempty]
      split
      · exact .pure hrow
      · exact hsingle fun _ _ => .pure (congrArg Widget.group hrow)
  | unspecified => exact hsingle fun _ _ => .pure rfl
  | unrecognized tag =>
      exact (Parallel.warn _).bind fun _ _ _ => parallel_singleton (parallel_diagnostic _ _)
  | text type =>
      exact hsingle fun id id' => .pure (by
        simp only [widgetWithoutIds, textInput, hunits id id'])
  | number kind => exact hsingle (parallel_numberWidget e kind)
  | dateTime kind =>
      exact hsingle fun id id' => .pure (by
        simp only [widgetWithoutIds, momentInput, hunits id id'])
  | boolean => exact hsingle fun _ _ => .pure rfl
  | categorical =>
      exact hsingle fun _ _ => (parallel_selectInput e).bind_eq fun _ => .pure rfl

theorem parallel_wrappedNode (hcomponents : Parallel rowWithoutIds components components)
    (htabs : ∀ id id', Parallel tabsWithoutIds (tabs id) (tabs id')) :
    Parallel rowWithoutIds (wrappedNode s e components tabs) (wrappedNode s e components tabs) := by
  refine parallel_node hcomponents htabs ?_
  rintro b ⟨⟩
  exact parallel_node hcomponents htabs nofun

end

mutual
/-- Wherever an entity is compiled, it comes to the same but for the ids. -/
theorem parallel_compile (s : Settings) : ∀ e : Entity,
    Parallel rowWithoutIds (compile s e) (compile s e)
  | ⟨facts, ⟨components⟩, choices, units⟩ => by
      rw [compile]
      exact parallel_wrappedNode (parallel_compileAll s components)
        (parallel_compileTabs s components true)
theorem parallel_compileAll (s : Settings) : ∀ components : List (String × Entity),
    Parallel rowWithoutIds (compileAll s components) (compileAll s components)
  | [] => .pure rfl
  | (key, e) :: rest => by
      rw [compileAll]
      refine (parallel_compile s e).bind fun fs gs hfirst =>
        (parallel_compileAll s rest).bind fun fs' gs' hrest => .pure ?_
      rw [rowWithoutIds_append, rowWithoutIds_append, hfirst, hrest]
theorem parallel_compileTabs (s : Settings) :
    ∀ (branches : List (String × Entity)) (first : Bool) (id id' : String),
      Parallel tabsWithoutIds (compileTabs s branches first id) (compileTabs s branches first id')
  | [], _, _, _ => .pure rfl
  | (key, branch) :: rest, first, parent, parent' => by
      rw [compileTabs, compileTabs]
      refine (parallel_nextPanelId parent parent' key).bind fun id id' _ =>
        (parallel_compile s branch).withinTab.bind fun fs gs hfragments =>
          (parallel_compileTabs s rest false parent parent').bind fun row row' hrest => .pure ?_
      rw [tabsWithoutIds, tabsWithoutIds, hfragments, hrest]
end

theorem parallel_compileBody (s : Settings) (e : Entity) :
    Parallel rowWithoutIds (compileBody s e) (compileBody s e) :=
  parallel_node (parallel_compileAll s _) (parallel_compileTabs s _ true) nofun

/-- What an entity yields on its own, inside a tab or outside, without the ids. -/
def alone (s : Settings) (inTab : Bool) (e : Entity) : List Fragment :=
  rowWithoutIds ((compile s e).run { tabDepth := inTab.toNat }).1

/-- A compiled entity is what it is alone, but for the ids. -/
theorem compile_alone (s : Settings) (e : Entity) (p : Pass) :
    rowWithoutIds ((compile s e).run p).1 = alone s (decide (0 < p.tabDepth)) e := by
  refine (parallel_compile s e p _ ?_).1
  by_cases h : 0 < p.tabDepth <;> simp [h]

/-- Each component is compiled to what it is alone, but for the ids. -/
theorem compileAll_alone (s : Settings) (components : List (String × Entity)) (p : Pass) :
    rowWithoutIds ((compileAll s components).run p).1 =
      components.flatMap fun entry => alone s (decide (0 < p.tabDepth)) entry.2 := by
  induction components generalizing p with
  | nil => rfl
  | cons entry rest ih =>
      obtain ⟨key, e⟩ := entry
      obtain ⟨_, ids, warnings, hrun, _⟩ := parallel_compile s e p p Iff.rfl
      have hdepth : ((compile s e).run p).2.tabDepth = p.tabDepth := by rw [hrun]; rfl
      have hrest := ih ((compile s e).run p).2
      rw [hdepth] at hrest
      calc rowWithoutIds ((compileAll s ((key, e) :: rest)).run p).1
          = rowWithoutIds (((compile s e).run p).1 ++
              ((compileAll s rest).run ((compile s e).run p).2).1) := by rw [compileAll]; rfl
        _ = alone s (decide (0 < p.tabDepth)) e ++
              rest.flatMap fun entry => alone s (decide (0 < p.tabDepth)) entry.2 := by
            rw [rowWithoutIds_append, compile_alone, hrest]

/-- Every branch is compiled to what it is alone in a tab, whatever lies around the tab set. -/
theorem compileTabs_alone (s : Settings) (branches : List (String × Entity)) (first : Bool)
    (parent : String) (p : Pass) :
    (((compileTabs s branches first parent).run p).1.map fun tab => rowWithoutIds tab.fragments) =
      branches.map fun entry => alone s true entry.2 := by
  induction branches generalizing first p with
  | nil => rfl
  | cons entry rest ih =>
      obtain ⟨key, branch⟩ := entry
      have hinside := compile_alone s branch
        { p with counter := p.counter + 1, tabDepth := p.tabDepth + 1 }
      rw [decide_eq_true (Nat.succ_pos p.tabDepth)] at hinside
      rw [List.map_cons, ← hinside, ← ih false _, compileTabs]
      rfl

/-- Fragments that are a row, but for ids, or one group of the row with records of the row. -/
def Gathers (row fragments : List Fragment) : Prop :=
  rowWithoutIds fragments = row ∨
    ∃ f children, fragments = [f] ∧ f.widget = .group children ∧ rowWithoutIds children = row ∧
      ∀ i ∈ f.instances, rowWithoutIds i.fragments = row

section
variable {e : Entity} {components : PassM (List Fragment)}
  {tabs : String → PassM (List (Tab Fragment))}

theorem run_node_grouping (s : Settings) (components : PassM (List Fragment))
    (tabs : String → PassM (List (Tab Fragment))) (hkind : e.kind = .grouping)
    (body : Option (PassM (List Fragment))) (p : Pass) :
    ∃ warnings, (node s e components tabs body).run p =
      (do
        let children ← components
        if children.isEmpty || body.isNone || e.displayLabel? = some Facts.noLabel then
          pure children
        else do pure [← fragment s e.toFacts body fun _ => pure (.group children)]).run
          { p with warnings } := by
  rw [node]
  simp only [hkind]
  split
  · exact ⟨_, rfl⟩
  · exact ⟨p.warnings, rfl⟩

/-- Without label and container a grouping is its components. -/
theorem run_bareNode_grouping (s : Settings) (components : PassM (List Fragment))
    (tabs : String → PassM (List (Tab Fragment))) (hkind : e.kind = .grouping) (p : Pass) :
    ∃ warnings, (bareNode s e components tabs).run p = components.run { p with warnings } := by
  obtain ⟨warnings, hrun⟩ := run_node_grouping s components tabs hkind none p
  refine ⟨warnings, ?_⟩
  rw [bareNode, hrun]
  simp only [Option.isNone_none, Bool.or_true, Bool.true_or, if_true]
  exact congrArg (fun m : PassM (List Fragment) => m.run _) (bind_pure components)

/-- All records have the body that the node has alone. -/
theorem records_alone {body : PassM (List Fragment)} {row : List Fragment} {t : Bool}
    (hbody : Parallel rowWithoutIds body body)
    (hrow : ∀ p : Pass, decide (0 < p.tabDepth) = t → rowWithoutIds (body.run p).1 = row)
    (numbers : List Nat) {p : Pass} (ht : decide (0 < p.tabDepth) = t) :
    ∀ i ∈ ((numbers.mapM (recordOf e.toFacts body false)).run p).1,
      rowWithoutIds i.fragments = row := by
  induction numbers generalizing p with
  | nil => exact List.forall_mem_nil _
  | cons number rest ih =>
      obtain ⟨_, ids, warnings, hrun, _⟩ :=
        parallel_recordOf (e := e.toFacts) hbody false number p p Iff.rfl
      have hrest := @ih ((recordOf e.toFacts body false number).run p).2
        (by rw [hrun]; exact ht)
      rw [List.mapM_cons]
      exact List.forall_mem_cons.mpr ⟨hrow { p with counter := p.counter + 1 } ht, hrest⟩

/-- A fragment with a body that is the same everywhere, but for ids, has that body as records. -/
theorem fragment_alone {body : PassM (List Fragment)} {row : List Fragment} {t : Bool}
    (hbody : Parallel rowWithoutIds body body)
    (hrow : ∀ p : Pass, decide (0 < p.tabDepth) = t → rowWithoutIds (body.run p).1 = row)
    (widget : Widget Fragment) {p : Pass} (ht : decide (0 < p.tabDepth) = t) :
    ∃ f p', (fragment s e.toFacts (some body) fun _ => pure widget).run p = (f, p') ∧
      f.widget = widget ∧ ∀ i ∈ f.instances, rowWithoutIds i.fragments = row := by
  obtain ⟨warnings, hrun⟩ := run_fragment_some (s := s) (e := e.toFacts) (p := p) body
    (fun _ => pure widget) (Silent.pure _)
  exact ⟨_, _, hrun, rfl, records_alone hbody hrow _ ht⟩

/-- With label and container a grouping is a group of its components, unless there is nothing to put
a container around. -/
theorem gathers_wrappedNode {row : List Fragment} {p : Pass} (hkind : e.kind = .grouping)
    (hcomponents : Parallel rowWithoutIds components components)
    (htabs : ∀ id id', Parallel tabsWithoutIds (tabs id) (tabs id'))
    (hrow : ∀ p' : Pass, decide (0 < p'.tabDepth) = decide (0 < p.tabDepth) →
      rowWithoutIds (components.run p').1 = row) :
    Gathers row ((wrappedNode s e components tabs).run p).1 := by
  have hbody : Parallel rowWithoutIds (bareNode s e components tabs)
      (bareNode s e components tabs) := parallel_node hcomponents htabs nofun
  have hbare (p' : Pass) (ht : decide (0 < p'.tabDepth) = decide (0 < p.tabDepth)) :
      rowWithoutIds ((bareNode s e components tabs).run p').1 = row := by
    obtain ⟨warnings, hrun⟩ := run_bareNode_grouping s components tabs hkind p'
    rw [hrun]
    exact hrow _ ht
  obtain ⟨warnings, hrun⟩ := run_node_grouping s components tabs hkind
    (some (bareNode s e components tabs)) p
  have hchildren := hrow { p with warnings } rfl
  obtain ⟨_, ids, more, hgrown, _⟩ := hcomponents { p with warnings } { p with warnings } Iff.rfl
  generalize hfirst : components.run { p with warnings } = r at hchildren hgrown
  obtain ⟨children, p'⟩ := r
  subst hgrown
  rw [wrappedNode, hrun, Pass.run_bind hfirst]
  split
  case isTrue => exact Or.inl hchildren
  case isFalse =>
    obtain ⟨f, p', hfragment, hwidget, hrecords⟩ := fragment_alone (s := s) (e := e)
      (p := Pass.grown { p with warnings } ids more) hbody hbare (.group children) rfl
    rw [Pass.run_bind hfragment]
    exact Or.inr ⟨f, children, rfl, hwidget, hchildren, hrecords⟩

/-- A disjunction is a tab set of its branches, with label and container or without. -/
theorem branches_node {rows : List (List Fragment)} (hkind : e.kind = .disjunction)
    (hbranches : e.components.isEmpty = false)
    (htabs : ∀ (id : String) (p : Pass),
      (((tabs id).run p).1.map fun tab => rowWithoutIds tab.fragments) = rows)
    (body : Option (PassM (List Fragment))) (p : Pass) :
    ∃ f row, ((node s e components tabs body).run p).1 = [f] ∧ f.widget = .tabs row ∧
      (row.map fun tab => rowWithoutIds tab.fragments) = rows := by
  have hrun : ∃ warnings, (node s e components tabs body).run p =
      (do pure [← tabSet s e.toFacts tabs]).run { p with warnings } := by
    rw [node]
    simp only [hkind, disjunction, hbranches, Bool.false_eq_true, if_false]
    split
    · exact ⟨_, rfl⟩
    · exact ⟨p.warnings, rfl⟩
  obtain ⟨warnings, hrun⟩ := hrun
  rw [hrun]
  exact ⟨_, _, rfl, rfl, htabs _ _⟩

end

theorem compile_node : ∀ e : Entity, compile s e =
    wrappedNode s e (compileAll s e.components.entries) (compileTabs s e.components.entries true)
  | ⟨facts, ⟨components⟩, choices, units⟩ => by rw [compile]

/-- An entity compiles to the same fragments, but for the ids, whatever the pass has done before,
inside tabs or outside, with label and container or without; the pass then has handed out as many
more ids, with the same warnings more, and lies inside as many tabs as before. What a grouping and a
disjunction yield for one component is what it yields alone, whatever the others are. -/
theorem compile_depends_on_entity (s : Settings) (e : Entity) (p p' : Pass)
    (h : 0 < p.tabDepth ↔ 0 < p'.tabDepth) :
    ∀ step ∈ [compile s e, compileBody s e],
      rowWithoutIds (step.run p).1 = rowWithoutIds (step.run p').1 ∧
        (∃ ids warnings,
          (step.run p).2 = p.grown ids warnings ∧ (step.run p').2 = p'.grown ids warnings) ∧
        (e.kind = .grouping →
          Gathers (e.components.entries.flatMap fun entry =>
            alone s (decide (0 < p.tabDepth)) entry.2) (step.run p).1) ∧
        (e.kind = .disjunction → e.components.isEmpty = false →
          ∃ f row, (step.run p).1 = [f] ∧ f.widget = .tabs row ∧
            (row.map fun tab => rowWithoutIds tab.fragments) =
              e.components.entries.map fun entry => alone s true entry.2) := by
  have hcomponents := parallel_compileAll s e.components.entries
  have htabs := parallel_compileTabs s e.components.entries true
  have hrow (p' : Pass) (ht : decide (0 < p'.tabDepth) = decide (0 < p.tabDepth)) :
      rowWithoutIds ((compileAll s e.components.entries).run p').1 =
        e.components.entries.flatMap fun entry => alone s (decide (0 < p.tabDepth)) entry.2 := by
    rw [compileAll_alone, ht]
  have hbranches := compileTabs_alone s e.components.entries true
  rw [List.forall_mem_cons, List.forall_mem_singleton]
  constructor
  · obtain ⟨hsame, hgrown⟩ := parallel_compile s e p p' h
    rw [compile_node] at hsame hgrown ⊢
    exact ⟨hsame, hgrown, fun hkind => gathers_wrappedNode hkind hcomponents htabs hrow,
      fun hkind hsome => branches_node hkind hsome hbranches _ p⟩
  · obtain ⟨hsame, hgrown⟩ := parallel_compileBody s e p p' h
    refine ⟨hsame, hgrown, fun hkind => ?_, fun hkind hsome =>
      branches_node hkind hsome hbranches _ p⟩
    obtain ⟨warnings, hrun⟩ := run_bareNode_grouping s _ _ hkind p
    rw [compileBody, hrun]
    exact Or.inl (hrow _ rfl)

/-- A plot with a name, a value of an unknown kind, and alternatives of which there are none. -/
def plot : Entity :=
  { id := "plot"
    datatype := some "model"
    components := ⟨[
      ("name", { id := "name", datatype := some "xmls:string" }),
      ("year", { id := "year", datatype := some "xmls:gYear" }),
      ("site", { id := "site", datatype := some "disjunction" })]⟩ }

/-- In one tab and in two a plot takes four ids, and is the same without them. -/
theorem plot_in_tabs :
    (0 < 1 ↔ 0 < 2) ∧
      rowWithoutIds ((compile {} plot).run { tabDepth := 1 }).1 =
        rowWithoutIds ((compile {} plot).run { counter := 7, tabDepth := 2 }).1 ∧
      ((compile {} plot).run { tabDepth := 1 }).2.counter = 4 ∧
      ((compile {} plot).run { counter := 7, tabDepth := 2 }).2.counter = 11 ∧
      ((compile {} plot).run { counter := 7, tabDepth := 2 }).2.tabDepth = 2 := by
  have hsame := (compile_depends_on_entity {} plot { tabDepth := 1 } { counter := 7, tabDepth := 2 }
    (by decide) _ List.mem_cons_self).1
  exact ⟨by decide, hsame, by decide +kernel, by decide +kernel, by decide +kernel⟩

end Entity

end EntryForm

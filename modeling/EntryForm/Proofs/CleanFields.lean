import EntryForm.Proofs.Derivation
import EntryForm.Proofs.Nodes

/-!
# What compiles without faults

The author of a specification is told its problems; the compiler warns of the faults that it comes
across, and puts notices of them into the form. The two walk the nodes by different ways. A node
without problems has no fault itself, nor has any component or choice below it, so whatever is
compiled from it holds no notice and warns of no fault.
-/

namespace EntryForm

/-- Whether a warning is about a fault that is a problem of the specification. -/
def Warning.isFault : Warning → Bool
  | .invertedCardinality _ _ _ => true
  | .unrecognizedDatatype _ _ => true
  | .emptyDisjunction _ => true
  | .uncategoricalOption _ _ _ => true
  | _ => false

/-- A row of warnings without one about a fault. -/
def Faultless (row : List Warning) : Prop := ∀ w ∈ row, w.isFault = false

theorem faultless_append {xs ys : List Warning} :
    Faultless (xs ++ ys) ↔ Faultless xs ∧ Faultless ys :=
  List.forall_mem_append

namespace Entity

/-- What a node without problems is like, and what lies right below it. -/
structure Flawless (e : Entity) : Prop where
  bounds : e.boundsInverted = false
  recognized : ∀ tag, e.kind ≠ .unrecognized tag
  branches : e.kind = .disjunction → e.components.isEmpty = false
  options : ∀ entry ∈ e.choices.entries, entry.2.kind = .categorical
  components : ∀ entry ∈ e.components.entries, entry.2.problems = []
  choices : ∀ entry ∈ e.choices.entries, entry.2.problems = []

/-- Nothing is wrong with a row of nodes exactly if nothing is wrong with any of them. -/
theorem problemsBelow_eq_nil_iff {entries : List (String × Entity)} :
    problemsBelow entries = [] ↔ ∀ entry ∈ entries, entry.2.problems = [] := by
  induction entries with
  | nil => simp [problemsBelow]
  | cons entry rest ih =>
      obtain ⟨key, e⟩ := entry
      rw [problemsBelow, List.append_eq_nil_iff, ih, List.forall_mem_cons]

/-- No problem is told exactly of the nodes that are flawless. -/
theorem problems_eq_nil_iff {e : Entity} : e.problems = [] ↔ e.Flawless := by
  obtain ⟨facts, ⟨components⟩, ⟨choices⟩, units⟩ := e
  rw [problems]
  simp only [List.append_eq_nil_iff, problemsBelow_eq_nil_iff, List.map_eq_nil_iff,
    List.filter_eq_nil_iff, bne_iff_ne, ne_eq, Classical.not_not]
  constructor
  · rintro ⟨⟨⟨⟨hbounds, hkind⟩, hoptions⟩, hcomponents⟩, hchoices⟩
    refine ⟨?_, ?_, ?_, hoptions, hcomponents, hchoices⟩
    · revert hbounds
      rw [Facts.boundsInverted]
      cases facts.minCardinality <;> cases facts.maxCardinality <;> simp
    · intro tag htag
      simp [htag] at hkind
    · intro hdisjunction
      simpa [hdisjunction, OrderedMap.isEmpty] using hkind
  · rintro ⟨hbounds, hrecognized, hbranches, hoptions, hcomponents, hchoices⟩
    refine ⟨⟨⟨⟨?_, ?_⟩, hoptions⟩, hcomponents⟩, hchoices⟩
    · revert hbounds
      rw [Facts.boundsInverted]
      cases facts.minCardinality <;> cases facts.maxCardinality <;> simp
    · split
      case _ hkind => simpa [OrderedMap.isEmpty] using hbranches hkind
      case _ tag hkind => exact absurd hkind (hrecognized tag)
      case _ => rfl

end Entity

namespace Pass
variable {α β : Type} {P : α → Prop} {Q : β → Prop}

/-- A step that yields what is as told, and warns of no fault. -/
def Yields (P : α → Prop) (m : PassM α) : Prop :=
  ∀ p : Pass, Faultless p.warnings → P (m.run p).1 ∧ Faultless (m.run p).2.warnings

namespace Yields
variable {m : PassM α}

theorem pure {a : α} (h : P a) : Yields P (Pure.pure a) := fun _ hp => ⟨h, hp⟩

/-- Steps that yield what they should can be put one after the other. -/
theorem bind {k : α → PassM β} (hm : Yields P m) (hk : ∀ a, P a → Yields Q (k a)) :
    Yields Q (m >>= k) := by
  intro p hp
  obtain ⟨ha, hp⟩ := hm p hp
  rw [StateT.run_bind]
  exact hk _ ha _ hp

/-- A warning that tells no fault may come first. -/
theorem warn {w : Warning} (hw : w.isFault = false) (h : Yields P m) :
    Yields P (do Pass.warn w; m) := by
  intro p hp
  apply h { p with warnings := p.warnings ++ [w] }
  exact faultless_append.mpr ⟨hp, List.forall_mem_singleton.mpr hw⟩

theorem warnIf {c : Prop} [Decidable c] {w : Warning} (hw : c → w.isFault = false)
    {k : Unit → PassM α} (h : Yields P (k ())) :
    Yields P (if c then do let r ← Pass.warn w; k r else k ()) := by
  split
  case isTrue hc => exact h.warn (hw hc)
  case isFalse => exact h

theorem withinTab (h : Yields P m) : Yields P (Pass.withinTab m) := by
  intro p hp
  rw [run_withinTab (Prod.eta _).symm]
  exact h { p with tabDepth := p.tabDepth + 1 } hp

theorem mapM {γ : Type} {k : γ → PassM α} (h : ∀ c, Yields P (k c)) (cs : List γ) :
    Yields (fun row => ∀ a ∈ row, P a) (cs.mapM k) := by
  induction cs with
  | nil => exact .pure (List.forall_mem_nil _)
  | cons c rest ih =>
      rw [List.mapM_cons]
      refine (h c).bind fun a ha => ih.bind fun row hrow => .pure ?_
      exact List.forall_mem_cons.mpr ⟨ha, hrow⟩

end Yields

theorem yields_nextId (entity : String) : Yields (fun _ => True) (nextId entity) :=
  fun _ hp => ⟨trivial, hp⟩

theorem yields_nextPanelId (parent branch : String) :
    Yields (fun _ => True) (nextPanelId parent branch) :=
  fun _ hp => ⟨trivial, hp⟩

theorem yields_inTab : Yields (fun _ => True) inTab := fun _ hp => ⟨trivial, hp⟩

end Pass

/-- Whether a widget tells no fault: it is no notice of one, and no option of it has one. -/
def Widget.isClean {φ : Type} : Widget φ → Bool
  | .diagnostic _ => false
  | .select input => input.options.all fun option => option.diagnostic.isNone
  | _ => true

namespace Widget
variable {φ ψ : Type}

theorem isClean_map (f : φ → ψ) (w : Widget φ) : (w.map f).isClean = w.isClean := by
  cases w <;> rfl

theorem isClean_hideTabs (w : Widget φ) : w.hideTabs.isClean = w.isClean := by
  cases w <;> rfl

/-- A pick-list is clean exactly if none of its options has something wrong. -/
theorem isClean_select {input : SelectInput} :
    (Widget.select input : Widget φ).isClean = true ↔
      ∀ option ∈ input.options, option.diagnostic = none := by
  simp [isClean]

/-- A clean widget is neither a notice nor a pick-list with something wrong. -/
theorem isClean_iff {w : Widget φ} :
    w.isClean = true ↔ (∀ message, w ≠ .diagnostic message) ∧
      ∀ input, w = .select input → ∀ option ∈ input.options, option.diagnostic = none := by
  cases w with
  | diagnostic message => simp [isClean]
  | select input => simp [isClean]
  | _ => simp [isClean]

end Widget

namespace Fragment

/-- A row of fragments that tells no fault, however deep inside. -/
def Clean (row : List Fragment) : Prop := ∀ n ∈ nodesOf row, n.widget.isClean = true

theorem clean_nil : Clean [] := List.forall_mem_nil _

theorem clean_append {xs ys : List Fragment} : Clean (xs ++ ys) ↔ Clean xs ∧ Clean ys := by
  rw [Clean, nodesOf_append, List.forall_mem_append]
  rfl

theorem clean_flatMap {ι : Type} {inside : ι → List Fragment} {parts : List ι} :
    Clean (parts.flatMap inside) ↔ ∀ part ∈ parts, Clean (inside part) := by
  induction parts with
  | nil => simp [clean_nil]
  | cons part rest ih => rw [List.flatMap_cons, clean_append, ih, List.forall_mem_cons]

/-- A fragment is clean exactly if its widget is and what is inside it. -/
theorem clean_singleton {f : Fragment} :
    Clean [f] ↔ f.widget.isClean = true ∧ Clean f.widget.children ∧
      ∀ i ∈ f.instances, Clean i.fragments := by
  rw [← clean_flatMap, ← clean_append, Clean, nodesOf_singleton, List.forall_mem_cons]
  change (f.widget.map (·.id)).isClean = true ∧ _ ↔ _
  rw [Widget.isClean_map]
  rfl

/-- Every widget in a clean row is clean. -/
theorem Clean.mem {row : List Fragment} (h : Clean row) {f : Fragment} (hf : f ∈ allOf row) :
    f.widget.isClean = true := by
  rw [← Widget.isClean_map (·.id)]
  exact h f.node (List.mem_map_of_mem hf)

end Fragment

namespace Entity
open Pass Fragment

theorem diagnose?_of_categorical {e : Facts} (h : e.kind = .categorical) (key : String) :
    Choice.diagnose? key e = none :=
  if_pos h

mutual
/-- The options of a tree of choices without problems have nothing wrong. -/
theorem yields_flatten (fields : List String) (cut : Option Nat) (depth : Nat) :
    ∀ e : Entity, e.problems = [] →
      Yields (fun below => ∀ option ∈ below.toList, option.diagnostic = none)
        (flatten fields cut depth e)
  | ⟨facts, components, ⟨choices⟩, units⟩, h => by
      have hflawless := problems_eq_nil_iff.mp h
      rw [flatten]
      split
      · exact .pure (List.forall_mem_nil _)
      · split
        · exact .pure (List.forall_mem_nil _)
        · have hrow := yields_flattenEntries fields cut depth facts.id choices hflawless.options
            hflawless.choices
          exact hrow.bind fun row hrow => .pure hrow
theorem yields_flattenEntries (fields : List String) (cut : Option Nat) (depth : Nat)
    (parent : String) : ∀ entries : List (String × Entity),
      (∀ entry ∈ entries, entry.2.kind = .categorical) →
        (∀ entry ∈ entries, entry.2.problems = []) →
          Yields (fun row => ∀ option ∈ row, option.diagnostic = none)
            (flattenEntries fields cut depth parent entries)
  | [], _, _ => .pure (List.forall_mem_nil _)
  | (key, e) :: rest, hoptions, hproblems => by
      obtain ⟨hkind, hoptions⟩ := List.forall_mem_cons.mp hoptions
      obtain ⟨hfirst, hproblems⟩ := List.forall_mem_cons.mp hproblems
      have hbelow := yields_flatten fields cut (depth + 1) e hfirst
      have hrest := yields_flattenEntries fields cut depth parent rest hoptions hproblems
      rw [flattenEntries]
      apply Yields.warnIf (fun _ => rfl)
      refine hbelow.bind fun below hbelow => ?_
      apply Yields.warnIf (fun hother => absurd hkind hother)
      refine hrest.bind fun row hrow => .pure ?_
      rw [List.forall_mem_cons, List.forall_mem_append]
      exact ⟨diagnose?_of_categorical hkind key, hbelow, hrow⟩
end

variable {s : Settings}

/-- The options of a node without problems have no fault, whatever they are cut to. -/
theorem yields_selectInput {e : Entity} (h : e.problems = []) :
    Yields (fun input => ∀ option ∈ input.options, option.diagnostic = none) (selectInput s e) :=
  (yields_flatten s.synonymFields (e.cutDepth s.defaultCutDepth) 0 e h).bind fun _ hrow =>
    .pure hrow

/-- A widget that tells no fault, and holds fragments that tell none. -/
def CleanWidget (w : Widget Fragment) : Prop := w.isClean = true ∧ Clean w.children

theorem yields_numberWidget (e : Entity) (kind : NumberKind) (id : String) :
    Yields CleanWidget (numberWidget e kind id) := by
  have hnumber : CleanWidget (.number (e.numberInput kind id)) := ⟨rfl, clean_nil⟩
  simp only [numberWidget]
  split
  · exact (Yields.pure hnumber).warn rfl
  · exact .pure hnumber

/-- A record is as clean as its body. -/
theorem yields_recordOf {body : PassM (List Fragment)} (hbody : Yields Clean body) (e : Facts)
    (removable : Bool) (number : Nat) :
    Yields (fun i => Clean i.fragments) (recordOf e body removable number) :=
  (yields_nextId _).bind fun _ _ => hbody.bind fun _ hrow => .pure hrow

/-- A fragment is clean if its widget and its body are. The records repeat the body, so they are
clean like it. -/
theorem yields_fragment {e : Facts} {body : Option (PassM (List Fragment))}
    {make : String → PassM (Widget Fragment)} (hbody : ∀ b ∈ body, Yields Clean b)
    (hmake : ∀ id, Yields CleanWidget (make id)) :
    Yields (fun f => Clean [f]) (fragment s e body make) := by
  refine (yields_nextId e.id).bind fun id _ => ?_
  refine (hmake id).bind fun widget hwidget => yields_inTab.bind fun t _ => ?_
  have hdone {records : List (Instance Fragment)} (h : ∀ i ∈ records, Clean i.fragments) :
      Yields (fun f => Clean [f]) (pure ⟨field s e body.isSome t id widget, widget, records⟩) :=
    .pure (clean_singleton.mpr ⟨hwidget.1, hwidget.2, h⟩)
  simp only
  split
  case _ b _ _ _ =>
    refine Yields.bind (.mapM (yields_recordOf (hbody b rfl) e false) _) ?_
    exact fun records hrecords => hdone hrecords
  case _ => exact hdone (List.forall_mem_nil _)

/-- A tab set is as clean as its tabs. -/
theorem yields_tabSet {e : Facts} {tabs : String → PassM (List (Tab Fragment))}
    (htabs : ∀ id, Yields (fun row => ∀ tab ∈ row, Clean tab.fragments) (tabs id)) :
    Yields (fun f => Clean [f]) (tabSet s e tabs) := by
  have hframe : Yields (fun f => Clean [f])
      (fragment s e (some (pure [])) fun _ => pure (.tabs [])) := by
    apply yields_fragment
    · rintro b ⟨⟩
      exact .pure clean_nil
    · exact fun _ => .pure ⟨rfl, clean_nil⟩
  refine hframe.bind fun frame _ => (htabs frame.id).bind fun row hrow => .pure ?_
  exact clean_singleton.mpr ⟨rfl, clean_flatMap.mpr hrow, List.forall_mem_nil _⟩

theorem yields_singleton {m : PassM Fragment} (h : Yields (fun f => Clean [f]) m) :
    Yields Clean (do pure [← m]) :=
  h.bind fun _ hf => .pure hf

section
variable {e : Entity} {components : PassM (List Fragment)}
  {tabs : String → PassM (List (Tab Fragment))}

/-- A node without problems is no reason for a notice. -/
theorem yields_node {body : Option (PassM (List Fragment))} (h : e.problems = [])
    (hcomponents : Yields Clean components)
    (htabs : ∀ id, Yields (fun row => ∀ tab ∈ row, Clean tab.fragments) (tabs id))
    (hbody : ∀ b ∈ body, Yields Clean b) :
    Yields Clean (node s e components tabs body) := by
  obtain ⟨hbounds, hrecognized, hbranches, _, _, _⟩ := problems_eq_nil_iff.mp h
  have hsingle {make : String → PassM (Widget Fragment)}
      (hmake : ∀ id, Yields CleanWidget (make id)) :
      Yields Clean (do pure [← fragment s e.toFacts body make]) :=
    yields_singleton (yields_fragment hbody hmake)
  have hplain {widget : String → Widget Fragment} (hclean : ∀ id, (widget id).isClean = true)
      (hchildren : ∀ id, (widget id).children = []) :
      Yields Clean (do pure [← fragment s e.toFacts body fun id => pure (widget id)]) :=
    hsingle fun id => .pure ⟨hclean id, hchildren id ▸ clean_nil⟩
  rw [node]
  apply Yields.warnIf
  · intro hinverted
    rw [hbounds] at hinverted
    cases hinverted
  generalize e.kind = kind at hrecognized hbranches ⊢
  cases kind with
  | disjunction =>
      have hnonempty : ¬ e.components.isEmpty = true := by simp [hbranches rfl]
      apply yields_singleton
      rw [disjunction, if_neg hnonempty]
      exact yields_tabSet htabs
  | grouping =>
      refine hcomponents.bind fun children hchildren => ?_
      split
      · exact .pure hchildren
      · exact hsingle fun _ => .pure ⟨rfl, hchildren⟩
  | unspecified => exact hplain (fun _ => rfl) fun _ => rfl
  | unrecognized tag => exact absurd rfl (hrecognized tag)
  | text type => exact hplain (fun _ => rfl) fun _ => rfl
  | number kind => exact hsingle (yields_numberWidget e kind)
  | dateTime kind => exact hplain (fun _ => rfl) fun _ => rfl
  | boolean => exact hplain (fun _ => rfl) fun _ => rfl
  | categorical =>
      refine hsingle fun _ => (yields_selectInput h).bind fun input hinput => .pure ?_
      exact ⟨Widget.isClean_select.mpr hinput, clean_nil⟩

theorem yields_bareNode (h : e.problems = []) (hcomponents : Yields Clean components)
    (htabs : ∀ id, Yields (fun row => ∀ tab ∈ row, Clean tab.fragments) (tabs id)) :
    Yields Clean (bareNode s e components tabs) :=
  yields_node h hcomponents htabs nofun

theorem yields_wrappedNode (h : e.problems = []) (hcomponents : Yields Clean components)
    (htabs : ∀ id, Yields (fun row => ∀ tab ∈ row, Clean tab.fragments) (tabs id)) :
    Yields Clean (wrappedNode s e components tabs) := by
  apply yields_node h hcomponents htabs
  rintro b ⟨⟩
  exact yields_bareNode h hcomponents htabs

end

mutual
/-- A node without problems is compiled to clean fragments, and warned of without faults. -/
theorem yields_compile : ∀ e : Entity, e.problems = [] → Yields Clean (compile s e)
  | ⟨facts, ⟨components⟩, choices, units⟩, h => by
      have hcomponents := (problems_eq_nil_iff.mp h).components
      rw [compile]
      exact yields_wrappedNode h (yields_compileAll components hcomponents)
        (yields_compileTabs components hcomponents true)
theorem yields_compileAll : ∀ components : List (String × Entity),
    (∀ entry ∈ components, entry.2.problems = []) → Yields Clean (compileAll s components)
  | [], _ => .pure clean_nil
  | (key, e) :: rest, h => by
      obtain ⟨hfirst, hrest⟩ := List.forall_mem_cons.mp h
      rw [compileAll]
      refine (yields_compile e hfirst).bind fun fs hfs => ?_
      refine (yields_compileAll rest hrest).bind fun gs hgs => .pure ?_
      exact clean_append.mpr ⟨hfs, hgs⟩
theorem yields_compileTabs : ∀ branches : List (String × Entity),
    (∀ entry ∈ branches, entry.2.problems = []) → ∀ (first : Bool) (parent : String),
      Yields (fun row => ∀ tab ∈ row, Clean tab.fragments) (compileTabs s branches first parent)
  | [], _, _, _ => .pure (List.forall_mem_nil _)
  | (key, branch) :: rest, h, first, parent => by
      obtain ⟨hfirst, hrest⟩ := List.forall_mem_cons.mp h
      rw [compileTabs]
      refine (yields_nextPanelId parent key).bind fun id _ => ?_
      refine (yields_compile branch hfirst).withinTab.bind fun fs hfs => ?_
      refine (yields_compileTabs rest hrest false parent).bind fun row hrow => .pure ?_
      exact List.forall_mem_cons.mpr ⟨hfs, hrow⟩
end

/-- One more instance of a node without problems tells no fault. -/
theorem yields_compileRecord {e : Entity} (h : e.problems = []) (number : Nat)
    (removable : Bool) :
    Yields (fun i => Clean i.fragments) (compileRecord s e number removable) := by
  have hcomponents := (problems_eq_nil_iff.mp h).components
  apply yields_recordOf
  exact yields_bareNode h (yields_compileAll _ hcomponents) (yields_compileTabs _ hcomponents true)

end Entity

end EntryForm

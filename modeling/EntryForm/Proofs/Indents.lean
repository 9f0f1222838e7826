import EntryForm.Proofs.DepthCut
import EntryForm.Proofs.Repetition
import EntryForm.Proofs.WellNested

/-!
# The indents of options

The indent of an option is written as it stands. In the forms of a session it is a blank for every
choice above the option, whatever the specification says, so that it adds no marks and no tags to
the markup of a form.
-/

namespace EntryForm

/-- An option is indented by a blank for every choice above it. -/
def Choice.Indented (c : Choice) : Prop := c.indent = blanks c.depth

/-- All options of a node are indented. -/
def Node.Indented (n : Node) : Prop := ∀ c ∈ n.widget.options, c.Indented

@[simp] theorem Widget.options_map {α β : Type} (f : α → β) (w : Widget α) :
    (w.map f).options = w.options := by
  cases w <;> rfl

/-- The options of a node that shows another tab, or none, are the same. -/
@[simp] theorem Widget.options_hideTabs {α : Type} (w : Widget α) :
    w.hideTabs.options = w.options := by
  cases w <;> rfl

/-- A fragment is indented as its options are. -/
theorem Fragment.indented_node (f : Fragment) :
    f.node.Indented ↔ ∀ c ∈ f.widget.options, c.Indented := by
  rw [Node.Indented, node, Widget.options_map]

namespace Choice

theorem eq_blank_of_mem {depth : Nat} {c : Char} (h : c ∈ (blanks depth).toList) : c = ' ' := by
  rw [blanks, String.toList_ofList] at h
  exact List.eq_of_mem_replicate h

/-- A blank is no mark. -/
theorem Indented.marksOf {c : Choice} (h : c.Indented) : marksOf c.indent = "" := by
  have hnone : marks (blanks c.depth).toList = [] := by
    apply List.filter_eq_nil_iff.mpr
    intro ch hch
    rw [eq_blank_of_mem hch]
    decide
  rw [h, EntryForm.marksOf, hnone]

/-- Blanks stand between tags. -/
theorem Indented.tags? {c : Choice} (h : c.Indented) : Markup.tags? c.indent = some [] := by
  have hscan : Markup.scan? none ((blanks c.depth).toList ++ []) = some [] := by
    apply Markup.scan?_text
    intro ch hch
    rw [eq_blank_of_mem hch]
    decide
  rw [List.append_nil] at hscan
  rw [h, Markup.tags?, hscan]

/-- A row of blanks is well nested, for it has no tags. -/
theorem Indented.isWellNested {c : Choice} (h : c.Indented) :
    Markup.isWellNested c.indent = true := by
  rw [Markup.isWellNested, h.tags?]
  rfl

end Choice

namespace Entity

/-- What is left of a row of choices is indented. -/
theorem indented_optionsTo {cut : Option Nat} {fields : List String} {depth : Nat}
    {row : List NestedChoice} : ∀ c ∈ optionsTo cut fields depth row, c.Indented := by
  intro c hc
  obtain ⟨n, _, rfl⟩ := List.mem_map.mp hc
  rw [Choice.cutOff]
  split <;> rfl

/-- The options below a node are indented, wherever they are cut off. -/
theorem indented_rowBelow (cut : Option Nat) (fields : List String) (depth : Nat) (e : Entity) :
    ∀ c ∈ (rowBelow cut fields depth e).toList, c.Indented := by
  rw [rowBelow]
  split
  · exact List.forall_mem_nil _
  · split
    · exact List.forall_mem_nil _
    · exact indented_optionsTo

/-- The options of a compiled pick-list are indented by blanks. -/
theorem indented_selectInput (s : Settings) (e : Entity) :
    ∀ c ∈ ((selectInput s e).run {}).1.options, c.Indented := by
  obtain ⟨warnings, hflat⟩ := silent_flatten_row (e.cutDepth s.defaultCutDepth) s.synonymFields 0 e
    (fun c _ => Nat.zero_le c) {}
  rw [selectInput, Pass.run_bind hflat]
  exact indented_rowBelow _ _ _ _

/-- Only a pick-list has options. -/
theorem indented_leaf {s : Settings} {e : Entity} {id : String} {widget : Widget Fragment}
    (h : e.leaf? s id = some widget) : ∀ c ∈ widget.options, c.Indented := by
  rw [leaf?] at h
  split at h <;> cases h
  · exact List.forall_mem_nil _
  · exact List.forall_mem_nil _
  · exact List.forall_mem_nil _
  · exact List.forall_mem_nil _
  · exact List.forall_mem_nil _
  · exact indented_selectInput s e

end Entity

open Fragment Entity in
/-- Whatever is compiled, its options are indented. -/
theorem Derives.indented {s : Settings} {source : Source} {t : Bool} {n m : Nat}
    {fragments : List Fragment} (h : Derives s source t n fragments m) :
    ∀ node ∈ nodesOf fragments, node.Indented := by
  have hnode {e : Facts} {wrapped t : Bool} {id : String} {widget : Widget Fragment}
      (hoptions : ∀ c ∈ widget.options, c.Indented) :
      (frame s e wrapped t id widget).node.Indented :=
    (indented_node _).mpr hoptions
  have hframe {e : Facts} {wrapped t : Bool} {id : String} {widget : Widget Fragment}
      (hchildren : widget.children = []) (hoptions : ∀ c ∈ widget.options, c.Indented) :
      ∀ node ∈ nodesOf [frame s e wrapped t id widget], node.Indented := by
    rw [nodesOf_frame _ _ _ _ hchildren]
    exact List.forall_mem_singleton.mpr (hnode hoptions)
  have hnone {φ : Type} {message : String} :
      ∀ c ∈ (Widget.diagnostic message : Widget φ).options, c.Indented := List.forall_mem_nil _
  induction h with
  | missing => exact List.forall_mem_nil _
  | found _ ih => exact ih
  | unresolved _ ih =>
      rw [nodesOf_cons]
      exact List.forall_mem_append.mpr ⟨hframe rfl hnone, ih⟩
  | none => exact List.forall_mem_nil _
  | more _ _ ih ih' =>
      rw [nodesOf_append]
      exact List.forall_mem_append.mpr ⟨ih, ih'⟩
  | fault _ => exact hframe rfl hnone
  | bare _ _ _ ih => exact ih
  | leaf hleaf => exact hframe (leaf_ids hleaf).1 (indented_leaf hleaf)
  | @group e t n m children _ _ _ _ ih =>
      rw [nodesOf_singleton]
      refine List.forall_mem_cons.mpr ⟨hnode (List.forall_mem_nil _), ?_⟩
      simpa [Fragment.children, frame, Widget.children] using ih
  | @record e field widget instances body number numbers wrapped t n m k _ _ ih ihbody =>
      obtain ⟨hself, hinside⟩ := List.forall_mem_cons.mp (nodesOf_singleton _ ▸ ih)
      rw [nodesOf_singleton]
      refine List.forall_mem_cons.mpr ⟨hself, ?_⟩
      simp only [Fragment.children, List.flatMap_append, List.flatMap_singleton,
        ← List.append_assoc, nodesOf_append]
      refine List.forall_mem_append.mpr ⟨?_, ihbody⟩
      simpa [Fragment.children, nodesOf_append] using hinside
  | filled _ ih => exact ih
  | tabSet =>
      rw [nodesOf_singleton]
      exact List.forall_mem_cons.mpr ⟨List.forall_mem_nil _, List.forall_mem_nil _⟩
  | @tab e branch key branches field row fs t n m k _ _ ih ihbranch =>
      obtain ⟨_, hinside⟩ := List.forall_mem_cons.mp (nodesOf_singleton _ ▸ ih)
      rw [nodesOf_singleton]
      refine List.forall_mem_cons.mpr ⟨List.forall_mem_nil _, ?_⟩
      simp only [Fragment.children, Widget.children, List.flatMap_append, List.flatMap_singleton,
        List.flatMap_nil, List.append_nil, nodesOf_append] at hinside ⊢
      exact List.forall_mem_append.mpr ⟨hinside, ihbranch⟩
  | tabbed _ _ _ ih => exact ih

namespace Form

/-- Options stay as they were compiled. -/
theorem indented_lasting (s : Settings) : Lasting s Node.Indented where
  compiled h := h.indented
  shape {n n'} hshape h := by
    have hoptions : n.widget.options = n'.widget.options := by
      have hhidden : n.widget.hideTabs.options = n'.widget.hideTabs.options :=
        congrArg (·.widget.options) hshape
      simpa only [Widget.options_hideTabs] using hhidden
    rw [Node.Indented, ← hoptions]
    exact h
  append _ _ h := h
  drop _ h := h

/-- The options of a form are those of its nodes. -/
theorem indented_options {form : Form} (h : ∀ n ∈ form.nodes, n.Indented) :
    ∀ c ∈ form.options, c.Indented := by
  intro c hc
  obtain ⟨f, hf, hc⟩ := List.mem_flatMap.mp hc
  exact f.indented_node.mp (h f.node (mem_nodes hf)) c hc

/-- What is kept of blanks is nothing, whether or not the marks among them are looked for. -/
theorem shape_of_indented {form : Form} (h : ∀ n ∈ form.nodes, n.Indented) :
    form.state.view (.shape marksOf) = form.state.view (.shape fun _ => "") := by
  refine @state_view_select (.shape fun _ => "") (SelectInput.blank marksOf) form ?_
  intro g hg w hw
  have hoptions : ∀ c ∈ w.options, c.blank marksOf = c.blank fun _ => "" := by
    intro c hc
    have hindented := g.indented_node.mp (h g.node (mem_nodes hg)) c (hw ▸ hc)
    rw [Choice.blank, Choice.blank, hindented.marksOf]
  exact congrArg (fun options => { w with options }) (List.map_congr_left hoptions)

end Form

namespace Markup
open Session

/-- Whatever texts and values two forms of one shape hold, the marks in their markup are the same,
if the indents of their options hold the same. In the forms of sessions the indents hold none, so
that nothing that comes from a specification or from who fills in a form adds to the marks. -/
theorem marks_tell_the_shape :
    (∀ a b : Form, a.state.view (.shape marksOf) = b.state.view (.shape marksOf) →
      marks (render (form a)).toList = marks (render (form b)).toList) ∧
    ∀ (d d' : Document) (s s' : Settings) (history history' : List Event) (a b : Form),
      ((start d s).run history).form = some a → ((start d' s').run history').form = some b →
        a.state.view (.shape fun _ => "") = b.state.view (.shape fun _ => "") →
          marks (render (form a)).toList = marks (render (form b)).toList := by
  have hmarks {a b : Form} (h : a.state.view (.shape marksOf) = b.state.view (.shape marksOf)) :
      marks (render (form a)).toList = marks (render (form b)).toList := by
    rw [marks_render, marks_render, skeleton_form h]
  refine ⟨fun a b => hmarks, ?_⟩
  intro d d' s s' history history' a b ha hb hshape
  apply hmarks
  rw [Form.shape_of_indented ((Form.indented_lasting s).run ha), hshape,
    Form.shape_of_indented ((Form.indented_lasting s').run hb)]

/-- A form of one pick-list with one option that is indented by a text. -/
def oneOption (indent : String) : Form :=
  let option : Choice := { (default : Choice) with id := "a", depth := 1, indent }
  ⟨"kind", 1, .fields [⟨default, .select { (default : SelectInput) with options := [option] }, []⟩],
    1⟩

/-- A label that is written like markup is a text like any other, and an indent of the same marks
adds the same. -/
theorem tagged_label_adds_no_marks :
    let document (label : String) : Document :=
      { specifications := ⟨[("note",
        { id := "note", datatype := some "xmls:string", label := some label })]⟩ }
    let form (label : String) : Form := (Form.compile {} (document label) "note" 1).1
    (∀ label, ((start (document label) {}).run [.select "note"]).form = some (form label)) ∧
      (form "<b>\"Note\"</b>").state.view (.shape fun _ => "") =
        (form "Note").state.view (.shape fun _ => "") ∧
      marks (render (Markup.form (form "<b>\"Note\"</b>"))).toList =
        marks (render (Markup.form (form "Note"))).toList ∧
      (oneOption "<i>").state.view (.shape marksOf) =
        (oneOption "<b>").state.view (.shape marksOf) ∧
      marks (render (Markup.form (oneOption "<i>"))).toList =
        marks (render (Markup.form (oneOption "<b>"))).toList := by
  intro document form
  obtain ⟨hmarks, hsessions⟩ := marks_tell_the_shape
  have hshown (label : String) :
      ((start (document label) {}).run [.select "note"]).form = some (form label) := rfl
  have hshape : (form "<b>\"Note\"</b>").state.view (.shape fun _ => "") =
      (form "Note").state.view (.shape fun _ => "") := rfl
  have hsame : marksOf "<i>" = marksOf "<b>" := congrArg String.ofList (by decide)
  have hindents : (oneOption "<i>").state.view (.shape marksOf) =
      (oneOption "<b>").state.view (.shape marksOf) :=
    congrArg (fun kept => (oneOption kept).state.view (.shape id)) hsame
  refine ⟨hshown, hshape, ?_, hindents, hmarks _ _ hindents⟩
  exact hsessions _ _ _ _ _ _ _ _ (hshown _) (hshown _) hshape

/-- Two forms that differ in the indent of an option have different marks, if one indent is written
like markup and the other is not. -/
theorem tagged_indent_adds_marks :
    (oneOption " ").state.view (.shape fun _ => "") =
        (oneOption "<").state.view (.shape fun _ => "") ∧
      marks (render (Markup.form (oneOption " "))).toList ≠
        marks (render (Markup.form (oneOption "<"))).toList := by
  refine ⟨rfl, ?_⟩
  rw [render, render, String.toList_ofList, String.toList_ofList]
  decide +kernel

end Markup

end EntryForm

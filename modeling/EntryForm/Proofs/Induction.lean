import EntryForm.Fragment.Basic
import EntryForm.Json.Shape

/-!
# Induction on nested trees

Readings and fragments hold lists of their own kind, some of them inside other records. One
principle for each says that a property of everything right inside a tree is enough for the tree,
so that proofs need not name the lists in between.
-/

namespace EntryForm

namespace Reading

/-- The readings right inside a reading. -/
def parts : Reading → List Reading
  | .arr items _ => items
  | .obj fields _ => fields.map Prod.snd
  | .deep inner => [inner]
  | _ => []

mutual
/-- Induction on readings, by what is right inside them. -/
theorem parts_induction {P : Reading → Prop} (step : ∀ r, (∀ part ∈ r.parts, P part) → P r) :
    ∀ r, P r
  | .null => step _ (by simp [parts])
  | .bool _ => step _ (by simp [parts])
  | .num _ => step _ (by simp [parts])
  | .str _ => step _ (by simp [parts])
  | .fault => step _ (by simp [parts])
  | .deep inner => step _ (by simpa [parts] using parts_induction step inner)
  | .arr items _ => step _ (by simpa [parts] using items_induction step items)
  | .obj fields _ => step _ (by simpa [parts] using fields_induction step fields)
private theorem items_induction {P : Reading → Prop}
    (step : ∀ r, (∀ part ∈ r.parts, P part) → P r) :
    ∀ items : List Reading, ∀ item ∈ items, P item
  | [] => by simp
  | item :: items => by simpa using ⟨parts_induction step item, items_induction step items⟩
private theorem fields_induction {P : Reading → Prop}
    (step : ∀ r, (∀ part ∈ r.parts, P part) → P r) :
    ∀ fields : List (Option String × Reading), ∀ value key, (key, value) ∈ fields → P value
  | [] => by simp
  | (first, value) :: fields => by
      intro other key h
      rcases List.mem_cons.mp h with h | h
      · exact (Prod.mk.inj h).2 ▸ parts_induction step value
      · exact fields_induction step fields other key h
end

end Reading

namespace Fragment

mutual
/-- Induction on fragments, by what is right inside them. -/
theorem children_induction {P : Fragment → Prop}
    (step : ∀ f, (∀ child ∈ f.children, P child) → P f) : ∀ f, P f
  | ⟨_, widget, instances⟩ => step _ (by
      intro child h
      rcases List.mem_append.mp h with h | h
      · exact widget_induction step widget child h
      · exact instances_induction step instances child h)
private theorem widget_induction {P : Fragment → Prop}
    (step : ∀ f, (∀ child ∈ f.children, P child) → P f) :
    ∀ widget : Widget Fragment, ∀ f ∈ widget.children, P f
  | .group children => row_induction step children
  | .tabs tabs => tabs_induction step tabs
  | .placeholder _ => by simp [Widget.children]
  | .diagnostic _ => by simp [Widget.children]
  | .text _ => by simp [Widget.children]
  | .number _ => by simp [Widget.children]
  | .moment _ => by simp [Widget.children]
  | .boolean _ => by simp [Widget.children]
  | .select _ => by simp [Widget.children]
private theorem row_induction {P : Fragment → Prop}
    (step : ∀ f, (∀ child ∈ f.children, P child) → P f) :
    ∀ row : List Fragment, ∀ f ∈ row, P f
  | [] => by simp
  | f :: rest => by simpa using ⟨children_induction step f, row_induction step rest⟩
private theorem tabs_induction {P : Fragment → Prop}
    (step : ∀ f, (∀ child ∈ f.children, P child) → P f) :
    ∀ tabs : List (Tab Fragment), ∀ f ∈ tabs.flatMap Tab.fragments, P f
  | [] => by simp
  | ⟨_, _, _, _, fragments⟩ :: rest => by
      intro f h
      rcases List.mem_append.mp h with h | h
      · exact row_induction step fragments f h
      · exact tabs_induction step rest f h
private theorem instances_induction {P : Fragment → Prop}
    (step : ∀ f, (∀ child ∈ f.children, P child) → P f) :
    ∀ instances : List (Instance Fragment), ∀ f ∈ instances.flatMap Instance.fragments, P f
  | [] => by simp
  | ⟨_, _, _, fragments⟩ :: rest => by
      intro f h
      rcases List.mem_append.mp h with h | h
      · exact row_induction step fragments f h
      · exact instances_induction step rest f h
end

end Fragment

end EntryForm

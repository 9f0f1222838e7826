import EntryForm.Proofs.Isolation
import EntryForm.Proofs.Nodes

/-!
# The range of a number field

A number field takes the values that its datatype has and its node allows. If the bounds of the node
are integers, of whatever size, the range that is compiled holds exactly the integers that lie in
both ranges, and empty bounds are warned of exactly if there are none.
-/

namespace EntryForm

theorem Number.less_int (a b : Int) : (Number.int a).less (.int b) = true ↔ a < b := by
  rw [less, order, beq_iff_eq, Int.compare_eq_lt]

/-- Whether an integer lies within two bounds, either of which may be absent. -/
def Within (lo hi : Option Int) (x : Int) : Prop := (∀ a ∈ lo, a ≤ x) ∧ ∀ b ∈ hi, x ≤ b

/-- The greater of the lower bounds and the lesser of the upper ones are met if all four are. -/
theorem within_merge (lo lo' hi hi' : Option Int) (x : Int) :
    Within (lo.merge max lo') (hi.merge min hi') x ↔ Within lo hi x ∧ Within lo' hi' x := by
  have hlower : (∀ a ∈ lo.merge max lo', a ≤ x) ↔ (∀ a ∈ lo, a ≤ x) ∧ ∀ a ∈ lo', a ≤ x := by
    cases lo with
    | none => simp
    | some a =>
        cases lo' with
        | none => simp
        | some a' => simp only [Option.merge_some_some, Option.mem_some_iff, forall_eq', Int.max_le]
  have hupper : (∀ b ∈ hi.merge min hi', x ≤ b) ↔ (∀ b ∈ hi, x ≤ b) ∧ ∀ b ∈ hi', x ≤ b := by
    cases hi with
    | none => simp
    | some b =>
        cases hi' with
        | none => simp
        | some b' => simp only [Option.merge_some_some, Option.mem_some_iff, forall_eq', Int.le_min]
  rw [Within, Within, Within, hlower, hupper, and_and_and_comm]

/-- There are integers within two bounds exactly if these do not cross. -/
theorem exists_within_iff (lo hi : Option Int) :
    (∃ x, Within lo hi x) ↔ ∀ a ∈ lo, ∀ b ∈ hi, a ≤ b := by
  constructor
  · rintro ⟨x, hlo, hhi⟩ a ha b hb
    exact Int.le_trans (hlo a ha) (hhi b hb)
  · intro h
    cases lo with
    | none =>
        refine ⟨hi.getD 0, nofun, ?_⟩
        rintro b ⟨⟩
        exact Int.le_refl b
    | some a =>
        refine ⟨a, ?_, h a rfl⟩
        rintro _ ⟨⟩
        exact Int.le_refl a

namespace Range

/-- A range whose bounds are integers. -/
def ofInts (lo hi : Option Int) : Range := ⟨lo.map .int, hi.map .int⟩

/-- Tightening integer bounds gives the integer that the choice gives. -/
theorem tighten_map {tighter : Number → Number → Bool} {choose : Int → Int → Int}
    (h : ∀ outer inner,
      (if tighter (.int inner) (.int outer) then inner else outer) = choose outer inner)
    (outer inner : Option Int) :
    tighten tighter (outer.map .int) (inner.map .int) = (outer.merge choose inner).map .int := by
  cases outer with
  | none => cases inner <;> rfl
  | some a =>
      cases inner with
      | none => rfl
      | some b =>
          rw [Option.map_some, Option.map_some, tighten, Option.merge_some_some, Option.map_some,
            ← h, apply_ite Number.int]

/-- Narrowing takes the greater of the lower bounds and the lesser of the upper ones. -/
theorem narrow_ofInts (lo lo' hi hi' : Option Int) :
    (ofInts lo hi).narrow (ofInts lo' hi') =
      ofInts (lo.merge Max.max lo') (hi.merge Min.min hi') := by
  have hlower (outer inner : Int) :
      (if (Number.int outer).less (.int inner) then inner else outer) = Max.max outer inner := by
    simp only [Number.less_int]
    split <;> omega
  have hupper (outer inner : Int) :
      (if (Number.int inner).less (.int outer) then inner else outer) = Min.min outer inner := by
    simp only [Number.less_int]
    split <;> omega
  rw [narrow, ofInts, ofInts, ofInts, tighten_map hlower, tighten_map hupper]

/-- Crossing bounds are found exactly if no integer lies within them. -/
theorem crossed?_ofInts (lo hi : Option Int) :
    (ofInts lo hi).crossed? = none ↔ ∃ x, Within lo hi x := by
  rw [exists_within_iff]
  cases lo with
  | none => exact iff_of_true rfl fun _ ha => nomatch ha
  | some a =>
      cases hi with
      | none => exact iff_of_true rfl fun _ _ _ hb => nomatch hb
      | some b =>
          have hless := Number.less_int b a
          simp only [crossed?, ofInts, Option.map_some, Option.mem_def, Option.some.injEq,
            forall_eq', ite_eq_right_iff, reduceCtorEq, imp_false, hless, Int.not_lt]

end Range

namespace Pass
variable {α β : Type}

/-- Whether empty bounds are warned of. -/
def TellsEmpty (warned : List Warning) : Prop :=
  ∃ w ∈ warned, w.message = "numeric bounds are empty"

theorem tellsEmpty_append {xs ys : List Warning} :
    TellsEmpty (xs ++ ys) ↔ TellsEmpty xs ∨ TellsEmpty ys := by
  simp only [TellsEmpty, List.mem_append, or_and_right, exists_or]

theorem not_tellsEmpty_nil : ¬ TellsEmpty [] := by
  rintro ⟨w, hw, _⟩
  cases hw

/-- A step that yields what is as told. It warns of empty bounds only if they are empty, and does so
then if it must. -/
def Reports (empty : Prop) (must : Bool) (P : α → Prop) (m : PassM α) : Prop :=
  ∀ p : Pass, P (m.run p).1 ∧ ∃ warned, (m.run p).2.warnings = p.warnings ++ warned ∧
    (TellsEmpty warned → empty) ∧ (must = true → empty → TellsEmpty warned)

namespace Reports
variable {empty : Prop} {must must' : Bool} {P : α → Prop} {Q : β → Prop} {m : PassM α}

/-- A step that warns of nothing. -/
theorem quiet (h : ∀ p : Pass, P (m.run p).1 ∧ (m.run p).2.warnings = p.warnings) :
    Reports empty false P m := by
  intro p
  obtain ⟨hvalue, hwarnings⟩ := h p
  refine ⟨hvalue, [], ?_, ?_, nofun⟩
  · rw [hwarnings, List.append_nil]
  · exact fun htells => absurd htells not_tellsEmpty_nil

theorem pure {a : α} (h : P a) : Reports empty false P (Pure.pure a) := quiet fun _ => ⟨h, rfl⟩

/-- What two steps report is what each of them reports. -/
theorem bind {k : α → PassM β} (hm : Reports empty must P m)
    (hk : ∀ a, P a → Reports empty must' Q (k a)) :
    Reports empty (must || must') Q (m >>= k) := by
  intro p
  obtain ⟨ha, warned, hwarned, honly, hall⟩ := hm p
  obtain ⟨hb, warned', hwarned', honly', hall'⟩ := hk _ ha (m.run p).2
  rw [StateT.run_bind]
  refine ⟨hb, warned ++ warned', ?_, ?_, ?_⟩
  · rw [← List.append_assoc, ← hwarned]
    exact hwarned'
  · rw [tellsEmpty_append]
    exact fun htells => htells.elim honly honly'
  · rw [tellsEmpty_append, Bool.or_eq_true]
    exact fun hmust hempty => hmust.imp (hall · hempty) (hall' · hempty)

/-- A step after which all that must be warned of is still to be. -/
theorem after {k : α → PassM β} (hm : Reports empty false P m)
    (hk : ∀ a, P a → Reports empty must Q (k a)) : Reports empty must Q (m >>= k) :=
  hm.bind hk

/-- A step that has warned of all that must be. -/
theorem before {k : α → PassM β} (hm : Reports empty must P m)
    (hk : ∀ a, P a → Reports empty false Q (k a)) : Reports empty must Q (m >>= k) := by
  have hboth := hm.bind hk
  rwa [Bool.or_false] at hboth

/-- A warning of something else. -/
theorem warnIf {c : Prop} [Decidable c] {w : Warning} (hw : w.message ≠ "numeric bounds are empty")
    {k : Unit → PassM α} (h : Reports empty must P (k ())) :
    Reports empty must P (if c then do let r ← Pass.warn w; k r else k ()) := by
  have hwarn : Reports empty false (fun _ => True) (Pass.warn w) := by
    intro p
    refine ⟨trivial, [w], rfl, ?_, nofun⟩
    rintro ⟨other, hother, htells⟩
    rw [List.mem_singleton.mp hother] at htells
    exact absurd htells hw
  split
  · exact hwarn.after fun _ _ => h
  · exact h

theorem may (h : Reports empty must P m) : Reports empty false P m := by
  intro p
  obtain ⟨ha, warned, hwarned, honly, _⟩ := h p
  exact ⟨ha, warned, hwarned, honly, nofun⟩

theorem imp {P' : α → Prop} (h : Reports empty must P m) (hP : ∀ a, P a → P' a) :
    Reports empty must P' m := by
  intro p
  obtain ⟨ha, hwarns⟩ := h p
  exact ⟨hP _ ha, hwarns⟩

/-- A row of steps reports what its steps do. -/
theorem mapM {γ : Type} {k : γ → PassM α} (h : ∀ c, Reports empty must P (k c)) (cs : List γ) :
    Reports empty false (fun row => ∀ a ∈ row, P a) (cs.mapM k) := by
  induction cs with
  | nil => exact .pure (List.forall_mem_nil _)
  | cons c rest ih =>
      rw [List.mapM_cons]
      apply (h c).may.after
      intro a ha
      apply ih.after
      intro row hrow
      exact .pure (List.forall_mem_cons.mpr ⟨ha, hrow⟩)

end Reports

end Pass

/-- A widget of a number field with a range. -/
def Widget.HasRange (r : Range) (w : Widget Fragment) : Prop :=
  ∃ input, w = .number input ∧ input.range = r

namespace Fragment

/-- A row in which all fields, however deep inside, are number fields with a range. -/
def Ranged (r : Range) (row : List Fragment) : Prop := ∀ f ∈ allOf row, f.widget.HasRange r

/-- A fragment has a range if its widget and all its records have it. -/
theorem ranged_singleton {r : Range} {f : Fragment} (hwidget : f.widget.HasRange r)
    (hinstances : ∀ i ∈ f.instances, Ranged r i.fragments) : Ranged r [f] := by
  intro g hg
  rcases mem_allOf_singleton.mp hg with rfl | hinside
  · exact hwidget
  · rcases mem_allOf_children.mp hinside with hchild | ⟨i, hi, hbody⟩
    · obtain ⟨input, hinput, _⟩ := hwidget
      rw [hinput] at hchild
      cases hchild
    · exact hinstances i hi g hbody

end Fragment

namespace Entity
open Pass Fragment

variable {s : Settings} {e : Entity} {kind : NumberKind} {lo hi : Option Int}

/-- A number input has the range of its node, and empty bounds are warned of. -/
theorem reports_numberWidget (h : (Range.ofKind kind).narrow e.range = .ofInts lo hi)
    (id : String) :
    Reports (∀ x, ¬ Within lo hi x) true (Widget.HasRange (.ofInts lo hi))
      (numberWidget e kind id) := by
  have hrange : (e.numberInput kind id).range = .ofInts lo hi := h
  have hwidget : (Widget.number (e.numberInput kind id)).HasRange (.ofInts lo hi) :=
    ⟨_, rfl, hrange⟩
  have hcrossed := Range.crossed?_ofInts lo hi
  intro p
  simp only [numberWidget, hrange]
  cases hbounds : (Range.ofInts lo hi).crossed? with
  | none =>
      obtain ⟨x, hx⟩ := hcrossed.mp hbounds
      refine ⟨hwidget, [], (List.append_nil _).symm, ?_, fun _ hempty => absurd hx (hempty x)⟩
      exact fun htells => absurd htells not_tellsEmpty_nil
  | some bounds =>
      have hempty (x : Int) (hx : Within lo hi x) : False := by
        rw [hcrossed.mpr ⟨x, hx⟩] at hbounds
        cases hbounds
      exact ⟨hwidget, [.emptyRange e.id bounds.1 bounds.2], rfl, fun _ => hempty,
        fun _ _ => ⟨_, List.mem_singleton_self _, rfl⟩⟩

variable {empty : Prop} {r : Range}

/-- One more instance has the fields of its body. -/
theorem reports_recordOf {body : PassM (List Fragment)}
    (hbody : Reports empty false (Ranged r) body) (e : Facts) (removable : Bool) (number : Nat) :
    Reports empty false (fun i => Ranged r i.fragments) (recordOf e body removable number) := by
  have hid : Reports empty false (fun _ => True) (nextId (e.id ++ "_record")) :=
    .quiet fun _ => ⟨trivial, rfl⟩
  exact hid.after fun _ _ => hbody.after fun _ hrow => .pure hrow

/-- A fragment around a number field. The records that it is filled with repeat the field, so they
give no other reason to warn. -/
theorem reports_fragment {e : Facts} {body : Option (PassM (List Fragment))}
    {make : String → PassM (Widget Fragment)} (hbody : ∀ b ∈ body, Reports empty false (Ranged r) b)
    (hmake : ∀ id, Reports empty true (Widget.HasRange r) (make id)) :
    Reports empty true (fun f => Ranged r [f]) (fragment s e body make) := by
  have hid : Reports empty false (fun _ => True) (nextId e.id) := .quiet fun _ => ⟨trivial, rfl⟩
  have htab : Reports empty false (fun _ => True) inTab := .quiet fun _ => ⟨trivial, rfl⟩
  refine hid.after fun id _ => (hmake id).before fun widget hwidget => htab.after fun t _ => ?_
  have hdone {records : List (Instance Fragment)} (h : ∀ i ∈ records, Ranged r i.fragments) :
      Reports empty false (fun f => Ranged r [f])
        (pure ⟨field s e body.isSome t id widget, widget, records⟩) :=
    .pure (ranged_singleton hwidget h)
  simp only
  split
  case _ b _ _ _ =>
    apply Reports.after (.mapM (reports_recordOf (hbody b rfl) e false) _)
    intro records hrecords
    exact hdone hrecords
  case _ => exact hdone (List.forall_mem_nil _)

/-- A number entity has one fragment, with label and container or without. -/
theorem reports_node (hkind : e.kind = .number kind)
    (hrange : (Range.ofKind kind).narrow e.range = .ofInts lo hi)
    {components : PassM (List Fragment)} {tabs : String → PassM (List (Tab Fragment))}
    {body : Option (PassM (List Fragment))}
    (hbody : ∀ b ∈ body, Reports (∀ x, ¬ Within lo hi x) false (Ranged (.ofInts lo hi)) b) :
    Reports (∀ x, ¬ Within lo hi x) true (fun row => row ≠ [] ∧ Ranged (.ofInts lo hi) row)
      (node s e components tabs body) := by
  rw [node]
  simp only [hkind]
  apply Reports.warnIf
  · simp [Warning.message]
  · apply (reports_fragment hbody (reports_numberWidget hrange)).before
    intro f hf
    exact .pure ⟨List.cons_ne_nil _ _, hf⟩

theorem reports_compileBody (hkind : e.kind = .number kind)
    (hrange : (Range.ofKind kind).narrow e.range = .ofInts lo hi) :
    Reports (∀ x, ¬ Within lo hi x) true (fun row => row ≠ [] ∧ Ranged (.ofInts lo hi) row)
      (compileBody s e) :=
  reports_node hkind hrange nofun

/-- A number field has the range of its node, and empty bounds are warned of. -/
theorem reports_compile (hkind : e.kind = .number kind)
    (hrange : (Range.ofKind kind).narrow e.range = .ofInts lo hi) :
    Reports (∀ x, ¬ Within lo hi x) true (fun row => row ≠ [] ∧ Ranged (.ofInts lo hi) row)
      (compile s e) := by
  rw [compile_node]
  refine reports_node hkind hrange fun b hb => ?_
  cases hb
  exact ((reports_compileBody hkind hrange).imp fun _ => And.right).may

/-- If the bounds that a node sets to a number are absent or integers, all number fields it compiles
to have the same range, which is of the integers within both the bounds of its datatype and those of
the node, and empty bounds are warned of exactly if there are none. -/
theorem number_range_is_intersection {s : Settings} {e : Entity} {kind : NumberKind}
    {lo hi : Option Int} (hkind : e.kind = .number kind) (hlo : e.minValue = lo.map .int)
    (hhi : e.maxValue = hi.map .int) (p : Pass) :
    ∀ step ∈ [compile s e, compileBody s e], ∃ lo' hi' warned,
      (step.run p).1 ≠ [] ∧
      (∀ f ∈ allOf (step.run p).1, ∃ input, f.widget = .number input ∧
        input.range = .ofInts lo' hi') ∧
      (∀ x, Within lo' hi' x ↔ Within kind.range.1 kind.range.2 x ∧ Within lo hi x) ∧
      (step.run p).2.warnings = p.warnings ++ warned ∧
      ((∃ w ∈ warned, w.message = "numeric bounds are empty") ↔ ∀ x, ¬ Within lo' hi' x) := by
  have hrange : (Range.ofKind kind).narrow e.range =
      .ofInts (kind.range.1.merge max lo) (kind.range.2.merge min hi) := by
    rw [Facts.range, hlo, hhi]
    exact Range.narrow_ofInts _ lo _ hi
  have hbody := reports_compileBody (s := s) hkind hrange
  have hreports : ∀ step ∈ [compile s e, compileBody s e], Reports _ true _ step :=
    List.forall_mem_cons.mpr
      ⟨reports_compile hkind hrange, List.forall_mem_singleton.mpr hbody⟩
  intro step hstep
  obtain ⟨⟨hsome, hranged⟩, warned, hwarned, honly, hmust⟩ := hreports step hstep p
  exact ⟨_, _, warned, hsome, hranged, within_merge _ lo _ hi, hwarned, honly, hmust rfl⟩

/-- Bounds of 64 bits that cross by one. -/
theorem crossed_bounds_are_warned_of :
    let e : Entity :=
      { id := "count"
        datatype := some "xmls:unsignedLong"
        minValue := some (.int 18446744073709551615)
        maxValue := some (.int 18446744073709551614) }
    e.kind = .number .unsignedLong ∧
      ∃ w ∈ ((compile {} e).run {}).2.warnings, w.message = "numeric bounds are empty" := by
  intro e
  have hkind : e.kind = .number .unsignedLong := rfl
  have hlo : e.minValue = (some 18446744073709551615).map .int := rfl
  have hhi : e.maxValue = (some 18446744073709551614).map .int := rfl
  obtain ⟨lo, hi, warned, _, _, hwithin, hwarned, hempty⟩ :=
    number_range_is_intersection hkind hlo hhi {} (compile {} e) List.mem_cons_self
  refine ⟨hkind, ?_⟩
  rw [hwarned]
  refine hempty.mpr fun x hx => ?_
  obtain ⟨-, hleast, hgreatest⟩ := (hwithin x).mp hx
  have hge := hleast _ rfl
  have hle := hgreatest _ rfl
  omega

end Entity

end EntryForm

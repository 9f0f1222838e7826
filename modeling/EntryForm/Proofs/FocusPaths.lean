import EntryForm.Proofs.Keys
import EntryForm.Proofs.PathValues

/-!
# Where a focus leads

A node that is reached from a root by steps down knows the way: the keys of the steps are the ids on
its path, and it is as deep as there are steps. The keys written with slashes between them are a
focus that leads to the node, and a focus that goes on with a step that the node does not have stops
there.
-/

namespace EntryForm

namespace Text

/-- The pieces of a text that are not empty. -/
def pieces (sep : Char) (cs : List Char) : List (List Char) :=
  (split sep cs).filter fun piece => !piece.isEmpty

/-- Up to the first separator is the first part. -/
theorem split_append_cons {sep : Char} {cs : List Char} (h : sep ∉ cs) (rest : List Char) :
    split sep (cs ++ sep :: rest) = cs :: split sep rest := by
  induction cs with
  | nil => rw [List.nil_append, split, if_pos rfl]
  | cons c cs ih =>
      rw [List.mem_cons, not_or] at h
      rw [List.cons_append, split, if_neg (Ne.symm h.1), ih h.2]

/-- Separators at the start make no pieces. -/
theorem pieces_replicate (sep : Char) (n : Nat) (cs : List Char) :
    pieces sep (List.replicate n sep ++ cs) = pieces sep cs := by
  induction n with
  | zero => rfl
  | succ n ih =>
      rw [List.replicate_succ, List.cons_append, pieces, split, if_pos rfl]
      exact ih

/-- What stands in front of a separator, or of the end, is a piece. -/
theorem pieces_append {sep : Char} {cs rest : List Char} (hne : cs ≠ []) (h : sep ∉ cs)
    (hrest : ∀ c ∈ rest.head?, c = sep) : pieces sep (cs ++ rest) = cs :: pieces sep rest := by
  have hkeep : (!cs.isEmpty) = true := by simpa using hne
  cases rest with
  | nil =>
      have hnil : pieces sep [] = [] := rfl
      rw [List.append_nil, pieces, split_of_not_mem h, hnil, List.filter_cons, if_pos hkeep,
        List.filter_nil]
  | cons c rest =>
      obtain rfl := hrest c rfl
      rw [pieces, split_append_cons h, List.filter_cons, if_pos hkeep, pieces, split, if_pos rfl]
      rfl

end Text

namespace Entity

/-- A node that is reached from another one by steps to components and choices. -/
inductive Descends : Entity → List String → Entity → Prop
  | here {e : Entity} : Descends e [] e
  | child {e next last : Entity} {key : String} {keys : List String} :
      e.child? key = some next → Descends next keys last → Descends e (key :: keys) last

section placing

/-- Placing the nodes of a map changes none of its keys. -/
theorem find?_placeEntries (depth : Nat) (path : List String) (key : String)
    (entries : List (String × Entity)) :
    OrderedMap.find? key (placeEntries depth path entries) =
      (OrderedMap.find? key entries).map (placeAt depth path) := by
  induction entries with
  | nil => rfl
  | cons entry rest ih =>
      obtain ⟨first, e⟩ := entry
      rw [placeEntries, OrderedMap.find?, OrderedMap.find?, ih]
      split <;> rfl

/-- Whatever is right below a node that has been placed has been placed one level further down. -/
theorem child?_placeAt (depth : Nat) (path : List String) (e : Entity) (key : String) :
    (e.placeAt depth path).child? key =
      (e.child? key).map (placeAt (depth + 1) (path ++ [e.id])) := by
  obtain ⟨facts, ⟨components⟩, ⟨choices⟩, units⟩ := e
  simp only [placeAt, child?, OrderedMap.get?, find?_placeEntries, Option.map_or]

theorem placeAt_depth (depth : Nat) (path : List String) (e : Entity) :
    (e.placeAt depth path).depth = depth := by
  obtain ⟨facts, ⟨components⟩, ⟨choices⟩, units⟩ := e
  rfl

theorem placeAt_id (depth : Nat) (path : List String) (e : Entity) :
    (e.placeAt depth path).id = e.id := by
  obtain ⟨facts, ⟨components⟩, ⟨choices⟩, units⟩ := e
  rfl

/-- A placed node has the path it was placed at, with its own id at the end. -/
theorem placeAt_entityPath (depth : Nat) (path : List String) (e : Entity) :
    (e.placeAt depth path).entityPath = path ++ [e.id] := by
  obtain ⟨facts, ⟨components⟩, ⟨choices⟩, units⟩ := e
  rfl

end placing

section naming
variable {e child : Entity} {key : String}

theorem named_of_find? {entries : List (String × Entity)} (h : entriesNamedByIds entries = true)
    (hfind : OrderedMap.find? key entries = some e) : e.id = key ∧ e.namedByIds = true := by
  induction entries with
  | nil => cases hfind
  | cons entry rest ih =>
      obtain ⟨first, d⟩ := entry
      rw [entriesNamedByIds, Bool.and_eq_true, Bool.and_eq_true, beq_iff_eq] at h
      obtain ⟨⟨hid, hbelow⟩, hrest⟩ := h
      rw [OrderedMap.find?] at hfind
      split at hfind
      case isTrue hfirst =>
        cases hfind
        exact ⟨hid.symm.trans hfirst, hbelow⟩
      case isFalse => exact ih hrest hfind

/-- A child is named by its id if its parent says so. -/
theorem named_of_child? (h : e.namedByIds = true) (hchild : e.child? key = some child) :
    child.id = key ∧ child.namedByIds = true := by
  obtain ⟨facts, ⟨components⟩, ⟨choices⟩, units⟩ := e
  rw [namedByIds, Bool.and_eq_true] at h
  rcases Option.or_eq_some_iff.mp hchild with hfind | ⟨_, hfind⟩
  · exact named_of_find? h.1 hfind
  · exact named_of_find? h.2 hfind

end naming

namespace Descends
variable {e last : Entity} {keys : List String}

/-- A node below a placed one knows the way from it, and how long it is: each node has been placed
one level further down, with one id more on its path. -/
theorem place (h : Descends e keys last) (hnamed : e.namedByIds = true) {depth : Nat}
    {path : List String} {e₀ : Entity} (hplaced : e = e₀.placeAt depth path) :
    last.entityPath = e.entityPath ++ keys ∧ last.depth = e.depth + keys.length := by
  induction h generalizing depth path e₀ with
  | here => exact ⟨(List.append_nil _).symm, rfl⟩
  | @child e next last key keys hchild _ ih =>
      obtain ⟨hid, hbelow⟩ := named_of_child? hnamed hchild
      rw [hplaced, child?_placeAt] at hchild
      obtain ⟨next₀, _, rfl⟩ := Option.map_eq_some_iff.mp hchild
      obtain ⟨hpath, hdepth⟩ := ih hbelow rfl
      rw [placeAt_id] at hid
      constructor
      · rw [hpath, hplaced, placeAt_entityPath, placeAt_entityPath, hid, List.append_assoc]
        rfl
      · rw [hdepth, hplaced, placeAt_depth, placeAt_depth, List.length_cons]
        omega

/-- Whoever descends along some keys finds the node at their end. -/
theorem descendant? (h : Descends e keys last) : e.descendant? keys = some last := by
  induction h with
  | here => rfl
  | child hchild _ ih => rw [Entity.descendant?, hchild, Option.bind_some, ih]

theorem of_descendant? (h : e.descendant? keys = some last) : Descends e keys last := by
  induction keys generalizing e with
  | nil =>
      cases h
      exact .here
  | cons key keys ih =>
      obtain ⟨next, hchild, hbelow⟩ := Option.bind_eq_some_iff.mp h
      exact .child hchild (ih hbelow)

theorem walk (h : Descends e keys last) : Document.walk e keys = (last, none) := by
  induction h with
  | here => rfl
  | child hchild _ ih =>
      rw [Document.walk, hchild]
      exact ih

/-- A walk stops where the next step leads nowhere. -/
theorem walk_append (h : Descends e keys last) {key : String} (hkey : last.child? key = none)
    (more : List String) : Document.walk e (keys ++ key :: more) = (last, some key) := by
  induction h with
  | here => rw [List.nil_append, Document.walk, hkey]
  | child hchild _ ih =>
      rw [List.cons_append, Document.walk, hchild]
      exact ih hkey

end Descends

end Entity

namespace Document

/-- What can be a step of a focus. -/
def IsStep (key : String) : Prop := key ≠ "" ∧ '/' ∉ key.toList

instance (key : String) : Decidable (IsStep key) := inferInstanceAs (Decidable (_ ∧ _))

/-- A text that consists of keys with one slash or more between each two of them, and with any
number of slashes before the first and after the last. -/
inductive Lists : List String → List Char → Prop
  | slashes (n : Nat) : Lists [] (List.replicate n '/')
  | step (n : Nat) {key : String} {keys : List String} {rest : List Char} :
      Lists keys rest → (∀ c ∈ rest.head?, c = '/') →
        Lists (key :: keys) (List.replicate n '/' ++ (key.toList ++ rest))

/-- A slash more at the start lists the same keys. -/
theorem Lists.cons_slash {keys : List String} {cs : List Char} (h : Lists keys cs) :
    Lists keys ('/' :: cs) := by
  cases h with
  | slashes n => exact .slashes (n + 1)
  | step n hrest hends => exact .step (n + 1) hrest hends

/-- Keys with one slash between each two are such a text. -/
theorem lists_join (keys : List String) :
    Lists keys (Text.join ['/'] (keys.map String.toList)) := by
  induction keys with
  | nil => exact .slashes 0
  | cons key rest ih =>
      cases rest with
      | nil =>
          have hlast : Lists [key] ([] ++ (key.toList ++ [])) := .step 0 (.slashes 0) nofun
          rwa [List.nil_append, List.append_nil] at hlast
      | cons next rest =>
          have hjoin : Text.join ['/'] ((key :: next :: rest).map String.toList) =
              key.toList ++ ['/'] ++ Text.join ['/'] ((next :: rest).map String.toList) := rfl
          rw [hjoin, List.append_assoc]
          exact .step 0 ih.cons_slash fun _ hc => (Option.some.inj hc).symm

/-- The steps of such a text are the keys. -/
theorem steps_of_lists {keys : List String} {focus : String} (h : Lists keys focus.toList)
    (hkeys : ∀ key ∈ keys, IsStep key) : steps focus = keys := by
  have hpieces {keys : List String} {cs : List Char} (h : Lists keys cs) :
      (∀ key ∈ keys, IsStep key) → (Text.pieces '/' cs).map String.ofList = keys := by
    induction h with
    | slashes n =>
        intro _
        have hnone := Text.pieces_replicate '/' n []
        rw [List.append_nil] at hnone
        rw [hnone]
        rfl
    | step n _ hrest ih =>
        intro hkeys
        obtain ⟨⟨hne, hslash⟩, hkeys⟩ := List.forall_mem_cons.mp hkeys
        rw [Text.pieces_replicate, Text.pieces_append (by simpa using hne) hslash hrest,
          List.map_cons, ih hkeys, String.ofList_toList]
  exact hpieces h hkeys

/-- A root that is found has been placed at the start of all paths. -/
theorem root_is_placed {text : String} {d : Document} (h : ofText text = .ok d)
    (hnamed : d.namedByIds = true) {key : String} {root : Entity}
    (hroot : d.root? key = some root) :
    root.id = key ∧ root.namedByIds = true ∧ ∃ root₀ : Entity, root = root₀.placeAt 0 [] := by
  obtain ⟨entries, _, hplaced⟩ := specifications_ofText h
  obtain ⟨hid, hbelow⟩ := Entity.named_of_find? hnamed hroot
  rw [root?, OrderedMap.get?, hplaced, Entity.find?_placeEntries] at hroot
  obtain ⟨root₀, _, rfl⟩ := Option.map_eq_some_iff.mp hroot
  exact ⟨hid, hbelow, root₀, rfl⟩

/-- A focus leads where its steps lead from the root of the first one. -/
theorem focus_of_steps {d : Document} {focus key : String} {keys : List String} {root : Entity}
    (hsteps : steps focus = key :: keys) (hroot : d.root? key = some root) :
    d.focus focus = .found (walk root keys).1 (walk root keys).2 := by
  have hrootOf : rootOf focus = key := by rw [rootOf, hsteps, List.head?_cons, Option.getD_some]
  rw [Document.focus, hrootOf, hroot, hsteps, List.tail_cons]

/-- In a document that has every node under its id, a node knows the keys of the steps by which it
is reached and how many they are, and it is found by them. If the keys can be steps of a focus, each
focus that lists them leads to the node, and each that goes on with a key that the node does not
have leads to the node too and stops at that key. -/
theorem focus_leads_to_reached {text : String} {d : Document} (h : ofText text = .ok d)
    (hnamed : d.namedByIds = true) {first : String} {keys : List String} {root e : Entity}
    (hroot : d.root? first = some root) (hreached : root.Descends keys e)
    (hkeys : ∀ key ∈ first :: keys, IsStep key) :
    e.entityPath = first :: keys ∧ e.depth = keys.length ∧ root.descendant? keys = some e ∧
      (∀ focus : String, Lists (first :: keys) focus.toList → d.focus focus = .found e none) ∧
      ∀ (next : String) (more : List String) (focus : String), e.child? next = none →
        (∀ key ∈ next :: more, IsStep key) →
          Lists (first :: keys ++ next :: more) focus.toList →
            d.focus focus = .found e (some next) := by
  obtain ⟨hid, hbelow, root₀, rfl⟩ := root_is_placed h hnamed hroot
  obtain ⟨hpath, hdepth⟩ := hreached.place hbelow rfl
  rw [Entity.placeAt_id] at hid
  rw [Entity.placeAt_entityPath, hid, List.nil_append, List.singleton_append] at hpath
  rw [Entity.placeAt_depth, Nat.zero_add] at hdepth
  refine ⟨hpath, hdepth, hreached.descendant?, ?_, ?_⟩
  · intro focus hfocus
    rw [focus_of_steps (steps_of_lists hfocus hkeys) hroot, hreached.walk]
  · intro next more focus hnext hmore hfocus
    have hall : ∀ key ∈ first :: keys ++ next :: more, IsStep key :=
      List.forall_mem_append.mpr ⟨hkeys, hmore⟩
    have hsteps : steps focus = first :: (keys ++ next :: more) := steps_of_lists hfocus hall
    rw [focus_of_steps hsteps hroot, hreached.walk_append hnext]

/-- The text of a document with a choice below a component that has the key of another choice. -/
def shadowedText : String :=
  "\x7b\"specifications\":\x7b\"r\":\x7b\"id\":\"r\",\"components\":\x7b\"g\":\x7b\"id\":\"g\"," ++
    "\"choices\":\x7b\"a\":\x7b\"id\":\"a\"\x7d\x7d\x7d\x7d," ++
    "\"choices\":\x7b\"g\":\x7b\"id\":\"g\"\x7d\x7d\x7d\x7d\x7d"

theorem shadowedText_reads :
    (ofText shadowedText).toOption.any (fun d => d.namedByIds &&
      (d.root? "r").any fun root => (root.descendant? ["g", "a"]).any fun e =>
        (e.child? "b").isNone) = true := by
  decide +kernel

/-- The choice is reached through the component, not through the choice beside it. -/
theorem choice_is_in_focus :
    ∃ d root e, ofText shadowedText = .ok d ∧ d.root? "r" = some root ∧
      root.Descends ["g", "a"] e ∧ e.entityPath = ["r", "g", "a"] ∧ e.depth = 2 ∧
      d.focus "r/g/a" = .found e none ∧ d.focus "/r///g/a/" = .found e none ∧
      d.focus "r/g/a/b/c" = .found e (some "b") := by
  obtain ⟨d, hd, hchecks⟩ := exists_of_any shadowedText_reads
  obtain ⟨hnamed, hchecks⟩ := (Bool.and_eq_true _ _).mp hchecks
  obtain ⟨root, hroot, hchecks⟩ := (Option.any_eq_true _ _).mp hchecks
  obtain ⟨e, he, hnone⟩ := (Option.any_eq_true _ _).mp hchecks
  have hreached : root.Descends ["g", "a"] e := .of_descendant? he
  obtain ⟨hpath, hdepth, _, hfound, hstops⟩ :=
    focus_leads_to_reached hd hnamed hroot hreached (by decide)
  have hextra : Lists ["r", "g", "a"] "/r///g/a/".toList := by
    have hlast : Lists ["a"] ['/', 'a', '/'] :=
      .step 1 (.slashes 1) fun _ hc => (Option.some.inj hc).symm
    have hnext : Lists ["g", "a"] ['/', '/', '/', 'g', '/', 'a', '/'] :=
      .step 3 hlast fun _ hc => (Option.some.inj hc).symm
    exact .step 1 hnext fun _ hc => (Option.some.inj hc).symm
  refine ⟨d, root, e, hd, hroot, hreached, hpath, hdepth, hfound _ (lists_join _), hfound _ hextra,
    ?_⟩
  exact hstops "b" ["c"] _ (Option.isNone_iff_eq_none.mp hnone) (by decide) (lists_join _)

end Document

end EntryForm

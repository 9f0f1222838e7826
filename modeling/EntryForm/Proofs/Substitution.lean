import EntryForm.Proofs.FilledTemplates

/-!
# Filling in one pass

A template is read once, from left to right. Where a reference starts, what its path leads to is put
down in place of the at sign and the path, and reading goes on behind them; every other character is
put down as it is. What has been put down is never read, so two texts that do not cut a reference
between them are filled one by one.
-/

namespace EntryForm

namespace Template

/-- What is put down for a path: a text as it stands, any other value as its JSON, and a note where
the path leads nowhere. -/
inductive Renders (data : Json) (path : List Char) : List Char → Prop
  | text {s : String} : data.lookup? path = some (.str s) → Renders data path s.toList
  | value {value : Json} : data.lookup? path = some value → (∀ s, value ≠ .str s) →
      Renders data path value.chars
  | unmatched : data.lookup? path = none →
      Renders data path ("unmatched reference: @".toList ++ path)

/-- A text starts with a reference: an at sign and a path, directly followed by the quote or the tag
that the rest starts with. Neither can be part of a path, so the path is as long as it can be. -/
structure Opens (cs path rest : List Char) : Prop where
  written : cs = '@' :: (path ++ rest)
  path_ne_nil : path ≠ []
  chars : ∀ x ∈ path, isPathChar x = true
  ended : ∃ c after, rest = c :: after ∧ isTerminator c = true

/-- One pass over a text: a reference is replaced where it starts, any other character is kept. -/
inductive Scan (data : Json) : List Char → List Char → Prop
  | nil : Scan data [] []
  | hit {cs path rest text out : List Char} :
      Opens cs path rest → Renders data path text → Scan data rest out → Scan data cs (text ++ out)
  | skip {c : Char} {rest out : List Char} :
      (∀ path after, ¬ Opens (c :: rest) path after) → Scan data rest out →
        Scan data (c :: rest) (c :: out)

/-- Two texts that are put together cut a reference: it starts in the first one, and the quote or
the tag that makes it one is in the second one. -/
def Cuts (front back : List Char) : Prop :=
  ∃ before part path rest, front = before ++ part ∧ part ≠ [] ∧ Opens (part ++ back) path rest ∧
    part.length ≤ path.length + 1

section fill
variable {data : Json} {cs path rest text out : List Char}

/-- What a path is rendered as is what it resolves to. -/
theorem renders_iff : Renders data path text ↔ text = resolve data path := by
  have hnote : (unmatchedReference (String.ofList path)).toList =
      "unmatched reference: @".toList ++ path := by
    unfold unmatchedReference
    rw [String.toList_append, @String.toList_ofList path]
  rw [resolve]
  constructor
  · intro h
    cases h with
    | text hfound => rw [hfound]; rfl
    | @value value hfound hne =>
        rw [hfound]
        cases value with
        | str s => exact absurd rfl (hne s)
        | _ => rfl
    | unmatched hnone => rw [hnone, hnote]
  · rintro rfl
    cases hfound : data.lookup? path with
    | none =>
        rw [hnote]
        exact .unmatched hfound
    | some value =>
        cases value with
        | str s => exact .text hfound
        | _ => exact .value hfound (by rintro s ⟨⟩)

theorem fillFrom_cons (data : Json) (c : Char) (rest : List Char) :
    fillFrom data none (c :: rest) =
      if c = '@' then fillFrom data (some []) rest else c :: fillFrom data none rest := by
  rw [fillFrom]

/-- Inside a reference the path goes on, ends, or turns out to be none. -/
theorem fillFrom_pending (data : Json) (word : List Char) (c : Char) (rest : List Char) :
    fillFrom data (some word) (c :: rest) =
      if isPathChar c then fillFrom data (some (c :: word)) rest
      else if isTerminator c && !word.isEmpty then
        resolve data word.reverse ++ c :: fillFrom data none rest
      else if c = '@' then '@' :: (word.reverse ++ fillFrom data (some []) rest)
      else '@' :: (word.reverse ++ c :: fillFrom data none rest) := by
  rw [fillFrom]

/-- A path is read on after an at sign. -/
theorem fillFrom_path (hpath : ∀ x ∈ path, isPathChar x = true) (word : List Char) :
    fillFrom data (some word) (path ++ rest) =
      fillFrom data (some (path.reverse ++ word)) rest := by
  induction path generalizing word with
  | nil => rfl
  | cons x path ih =>
      obtain ⟨hx, hpath⟩ := List.forall_mem_cons.mp hpath
      rw [List.cons_append, fillFrom_pending, if_pos hx, ih hpath, List.reverse_cons,
        List.append_assoc, List.singleton_append]

/-- A reference is filled with what its path resolves to. -/
theorem fillFrom_of_opens (h : Opens cs path rest) :
    fillFrom data none cs = resolve data path ++ fillFrom data none rest := by
  obtain ⟨rfl, hne, hchars, c, after, rfl, hend⟩ := h
  have hchar : isPathChar c = false := not_isPathChar_of_isTerminator hend
  have hat : c ≠ '@' := by
    rintro rfl
    exact absurd hend (by decide)
  have hempty : path.reverse.isEmpty = false := by simpa using hne
  rw [fillFrom_cons, if_pos rfl, fillFrom_path hchars, List.append_nil, fillFrom_pending,
    if_neg (by simp [hchar]), if_pos (by simp [hend, hempty]), List.reverse_reverse,
    fillFrom_cons, if_neg hat]

/-- An at sign and the path after it are kept if they are no reference. -/
theorem fillFrom_kept {word : List Char} (hword : ∀ x ∈ word, isPathChar x = true)
    (h : ∀ path after, ¬ Opens ('@' :: (word.reverse ++ cs)) path after) :
    fillFrom data (some word) cs = '@' :: (word.reverse ++ fillFrom data none cs) := by
  induction cs generalizing word with
  | nil => rw [fillFrom, fillFrom, List.append_nil]
  | cons c rest ih =>
      rw [fillFrom_pending, fillFrom_cons]
      split
      case isTrue hchar =>
        have hat : c ≠ '@' := by
          rintro rfl
          exact absurd hchar (by decide)
        have hlonger : word.reverse ++ c :: rest = (c :: word).reverse ++ rest := by simp
        rw [hlonger] at h
        rw [ih (List.forall_mem_cons.mpr ⟨hchar, hword⟩) h, if_neg hat]
        simp
      case isFalse =>
        split
        case isTrue hend =>
          obtain ⟨hterminator, hempty⟩ := Bool.and_eq_true_iff.mp hend
          refine absurd ?_ (h word.reverse (c :: rest))
          exact ⟨rfl, by simpa using hempty, by simpa using hword, c, rest, rfl, hterminator⟩
        case isFalse =>
          split
          case isTrue => rfl
          case isFalse => rfl

/-- A character that starts no reference is copied. -/
theorem fillFrom_of_not_opens {c : Char} (h : ∀ path after, ¬ Opens (c :: rest) path after) :
    fillFrom data none (c :: rest) = c :: fillFrom data none rest := by
  rw [fillFrom_cons]
  split
  case isTrue hat =>
    subst hat
    exact fillFrom_kept (List.forall_mem_nil _) h
  case isFalse => rfl

/-- Filling a template is one scan of it. -/
theorem scan_fillFrom (data : Json) (cs : List Char) : Scan data cs (fillFrom data none cs) := by
  induction hlength : cs.length using Nat.strongRecOn generalizing cs with
  | _ n ih =>
      subst hlength
      cases cs with
      | nil => exact .nil
      | cons c rest =>
          by_cases hopens : ∃ path after, Opens (c :: rest) path after
          · obtain ⟨path, after, hopens⟩ := hopens
            have hshorter : after.length < (c :: rest).length := by
              rw [hopens.written, List.length_cons, List.length_append]
              omega
            rw [fillFrom_of_opens hopens]
            exact .hit hopens (renders_iff.mpr rfl) (ih _ hshorter after rfl)
          · have hnone : ∀ path after, ¬ Opens (c :: rest) path after :=
              fun path after h => hopens ⟨path, after, h⟩
            rw [fillFrom_of_not_opens hnone]
            exact .skip hnone (ih _ (Nat.lt_succ_self _) rest rfl)

/-- One pass has one result, which is the filled text. -/
theorem scan_iff : Scan data cs out ↔ out = fillFrom data none cs := by
  constructor
  · intro h
    induction h with
    | nil => rw [fillFrom]
    | hit hopens hrenders _ ih => rw [fillFrom_of_opens hopens, ih, renders_iff.mp hrenders]
    | skip hnone _ ih => rw [fillFrom_of_not_opens hnone, ih]
  · rintro rfl
    exact scan_fillFrom data cs

/-- A reference that has ended is not changed by what follows. -/
theorem Opens.append (h : Opens cs path rest) (back : List Char) :
    Opens (cs ++ back) path (rest ++ back) := by
  obtain ⟨rfl, hne, hchars, c, after, rfl, hend⟩ := h
  exact ⟨by simp, hne, hchars, c, after ++ back, rfl, hend⟩

/-- What starts two texts together starts the first one, if it reaches no further. -/
theorem Opens.of_append {front back : List Char} (h : Opens (front ++ back) path rest)
    (hlong : path.length + 1 < front.length) : ∃ after, Opens front path after := by
  obtain ⟨hwritten, hne, hchars, c, after, rfl, hend⟩ := h
  have hsplit : front ++ back = ('@' :: (path ++ [c])) ++ after := by simpa using hwritten
  obtain ⟨more, hfront, -⟩ | ⟨more, hfront, -⟩ := List.append_eq_append_iff.mp hsplit
  · have hlength := congrArg List.length hfront
    simp only [List.length_cons, List.length_append, List.length_nil] at hlength
    have hmore : more = [] := List.length_eq_zero_iff.mp (by omega)
    rw [hmore, List.append_nil] at hfront
    exact ⟨[c], hfront.symm, hne, hchars, c, [], rfl, hend⟩
  · refine ⟨c :: more, ?_, hne, hchars, c, more, rfl, hend⟩
    simpa using hfront

theorem not_cuts_of_append (before : List Char) {front back : List Char}
    (h : ¬ Cuts (before ++ front) back) : ¬ Cuts front back := by
  rintro ⟨more, part, path, rest, rfl, hpart⟩
  exact h ⟨before ++ more, part, path, rest, by simp, hpart⟩

/-- Texts between which no reference is cut are read one after the other. -/
theorem Scan.append {front back out' : List Char} (h : Scan data front out)
    (h' : Scan data back out') (hcuts : ¬ Cuts front back) :
    Scan data (front ++ back) (out ++ out') := by
  induction h with
  | nil => exact h'
  | @hit cs path rest text out hopens hrenders _ ih =>
      rw [List.append_assoc]
      refine .hit (hopens.append back) hrenders (ih ?_)
      apply not_cuts_of_append ('@' :: path)
      rwa [List.cons_append, ← hopens.written]
  | @skip c rest out hnone _ ih =>
      refine .skip ?_ (ih (not_cuts_of_append [c] hcuts))
      intro path after hopens
      rcases Nat.lt_or_ge (path.length + 1) (c :: rest).length with hlong | hshort
      · obtain ⟨after, hopens⟩ := hopens.of_append hlong
        exact hnone path after hopens
      · exact hcuts ⟨[], c :: rest, path, after, rfl, List.cons_ne_nil c rest, hopens, hshort⟩

/-- Nothing is cut behind a character that no reference goes on after. -/
theorem not_cuts_of_getLast? {front back : List Char} {c : Char} (hlast : front.getLast? = some c)
    (hchar : isPathChar c = false) (hat : c ≠ '@') : ¬ Cuts front back := by
  rintro ⟨before, part, path, rest, rfl, hpart, hopens, hshort⟩
  cases part with
  | nil => exact hpart rfl
  | cons x part =>
      obtain ⟨rfl, hwritten⟩ := List.cons_eq_cons.mp hopens.written
      have hprefix : part <+: path := by
        refine List.prefix_of_prefix_length_le ⟨back, rfl⟩ ⟨rest, hwritten.symm⟩ ?_
        simpa using hshort
      rw [List.getLast?_append_of_ne_nil _ (List.cons_ne_nil _ _), List.getLast?_cons] at hlast
      cases hend : part.getLast? with
      | none =>
          rw [hend] at hlast
          exact hat (Option.some.inj hlast).symm
      | some y =>
          rw [hend] at hlast
          obtain rfl : y = c := Option.some.inj hlast
          have hmem : y ∈ path := hprefix.subset (List.mem_of_getLast? hend)
          rw [hopens.chars y hmem] at hchar
          cases hchar

end fill

/-- Filling replaces every reference in one pass and keeps all else, and it fills two texts one by
one unless a reference is cut between them. -/
theorem fill_scans_once (markup : String) (data : Json) :
    (∀ out : String, Scan data markup.toList out.toList ↔ out = fill markup data) ∧
      ∀ front back : String, markup = front ++ back → ¬ Cuts front.toList back.toList →
        fill markup data = fill front data ++ fill back data := by
  constructor
  · intro out
    rw [scan_iff, fill, ← String.toList_inj, String.toList_ofList]
  · rintro front back rfl hcuts
    have hscan := (scan_fillFrom data front.toList).append (scan_fillFrom data back.toList) hcuts
    calc fill (front ++ back) data
        = String.ofList (fillFrom data none (front.toList ++ back.toList)) := by
          rw [fill, String.toList_append]
      _ = String.ofList (fillFrom data none front.toList ++ fillFrom data none back.toList) := by
          rw [scan_iff.mp hscan]
      _ = fill front data ++ fill back data := by
          rw [String.ofList_append, fill, fill]

/-- A value that looks like a reference is not replaced, also where another one follows. -/
theorem value_is_not_scanned :
    let data := Json.obj [("note", .str "@x<"), ("x", .num (.int 1))]
    Scan data "<p>@note</p>@x\"".toList "<p>@x<</p>1\"".toList ∧
      fill "<p>@note</p>@x\"" data = fill "<p>@note</p>" data ++ fill "@x\"" data := by
  intro data
  have hfill : "<p>@x<</p>1\"" = fill "<p>@note</p>@x\"" data := by decide +kernel
  obtain ⟨hscan, hparts⟩ := fill_scans_once "<p>@note</p>@x\"" data
  refine ⟨(hscan _).mpr hfill, hparts "<p>@note</p>" "@x\"" (by decide) ?_⟩
  apply not_cuts_of_getLast? (c := '>') <;> decide

end Template

end EntryForm

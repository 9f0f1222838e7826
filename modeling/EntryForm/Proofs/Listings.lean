import EntryForm.Library
import EntryForm.Proofs.Maps

/-!
# What a listing leads to

A listing tells the ids that stand inside the files, while opening an id reads the file of that
name. So a resource that is listed can be opened exactly where the file named by its id holds it,
and where the id may name a file at all.
-/

namespace EntryForm

namespace Library
variable {d : Directory} {id name : String} {s : Summary}

/-- A plain id names a file that a listing looks into. -/
theorem isRecord_append (h : isPlainId id = true) : isRecord (id ++ ".json") = true := by
  have hne : id.toList ≠ [] := by
    intro hnil
    have hempty : id.isEmpty = true := by
      rw [String.isEmpty_iff]
      exact String.toList_eq_nil_iff.mp hnil
    simp [isPlainId, hempty] at h
  have hpos : 0 < id.toList.length := List.length_pos_iff.mpr hne
  rw [isRecord, Bool.and_eq_true, decide_eq_true_iff]
  constructor
  · rw [List.isSuffixOf_iff_suffix, String.toList_append]
    exact List.suffix_append _ _
  · rw [String.toList_append, List.length_append]
    have hfive : ".json".toList.length = 5 := rfl
    omega

/-- Opening succeeds with what the file of the id holds. -/
theorem load_ok_iff {r : Resource} :
    load d id = .ok r ↔
      isPlainId id = true ∧ ∃ content, Fields.get? (id ++ ".json") d = some (.text content) ∧
        Resource.ofText content = .ok r := by
  rw [load]
  by_cases hplain : isPlainId id = true
  case neg => simp [hplain]
  case pos =>
    rw [if_neg (by simp [hplain])]
    cases hfile : Fields.get? (id ++ ".json") d with
    | none => simp
    | some entry =>
        cases entry with
        | directory => simp
        | binary => simp
        | text content => cases hread : Resource.ofText content <;> simp [hplain, hread]

/-- A listing tells of a file what it holds. -/
theorem summary?_eq_some_iff {entry : FileEntry} :
    summary? name entry = some s ↔
      isRecord name = true ∧ ∃ content r, entry = .text content ∧
        Resource.ofText content = .ok r ∧ r.summary = s := by
  cases entry with
  | directory => simp [summary?]
  | binary => simp [summary?]
  | text content =>
      rw [summary?]
      by_cases hrecord : isRecord name = true
      case neg => simp [hrecord]
      case pos => cases hread : Resource.ofText content <;> simp [hrecord, hread, Except.toOption]

/-- Opening an id shows a summary exactly if the file of that name has it. -/
theorem opens_iff (hd : Fields.Sorted d) :
    (∃ r, load d id = .ok r ∧ r.summary = s) ↔
      isPlainId id = true ∧
        ∃ own ∈ d, own.1 = id ++ ".json" ∧ summary? own.1 own.2 = some s := by
  constructor
  · rintro ⟨r, hload, hs⟩
    obtain ⟨hplain, content, hfile, hread⟩ := load_ok_iff.mp hload
    refine ⟨hplain, (id ++ ".json", .text content), Fields.mem_of_get? hfile, rfl, ?_⟩
    exact summary?_eq_some_iff.mpr ⟨isRecord_append hplain, content, r, rfl, hread, hs⟩
  · rintro ⟨hplain, ⟨_, entry⟩, hown, rfl, hsummary⟩
    obtain ⟨-, content, r, rfl, hread, hs⟩ := summary?_eq_some_iff.mp hsummary
    have hfile : Fields.get? (id ++ ".json") d = some (.text content) :=
      Fields.get?_of_mem hd.nodup hown
    exact ⟨r, load_ok_iff.mpr ⟨hplain, content, hfile, hread⟩, hs⟩

/-- All that is listed can be opened, and shows what was listed, exactly if every file that tells
a resource tells a plain id, and the file of that id tells the same. -/
theorem listed_opens_iff (hd : Fields.Sorted d) :
    (∀ s ∈ list d, ∃ r, load d s.id = .ok r ∧ r.summary = s) ↔
      ∀ file ∈ d, ∀ s ∈ summary? file.1 file.2, isPlainId s.id = true ∧
        ∃ own ∈ d, own.1 = s.id ++ ".json" ∧ summary? own.1 own.2 = some s := by
  constructor
  · intro hopens file hfile s hs
    apply (opens_iff hd).mp
    apply hopens
    exact List.mem_filterMap.mpr ⟨file, hfile, hs⟩
  · intro hnamed s hs
    obtain ⟨file, hfile, hsummary⟩ := List.mem_filterMap.mp hs
    apply (opens_iff hd).mpr
    exact hnamed file hfile s hsummary

/-- A directory with a resource under a number, one under a name, and a file that is neither. -/
def shelf : Directory :=
  [("7.json", .text "\x7b\"id\":7,\"name\":\"Cell\",\"version\":\"2\"\x7d"),
    ("cell.json", .text "\x7b\"id\":\"cell\",\"curation\":\"draft\"\x7d"),
    ("notes.json", .text "\x7b\"name\":\"no id\"\x7d")]

theorem listed_opens_on_shelf :
    Fields.Sorted shelf ∧ (list shelf).map Summary.id = ["7", "cell"] ∧
      ∀ s ∈ list shelf, ∃ r, load shelf s.id = .ok r ∧ r.summary = s := by
  have hsorted : Fields.Sorted shelf := by
    unfold Fields.Sorted
    decide +kernel
  refine ⟨hsorted, by decide +kernel, (listed_opens_iff hsorted).mpr ?_⟩
  decide +kernel

/-- A directory with a resource in a file that is not named by its id. -/
def misnamed : Directory := [("a.json", .text "\x7b\"id\":\"b\"\x7d")]

/-- The resource is listed, but under its id there is nothing to open. -/
theorem misnamed_is_listed_but_does_not_open :
    ¬ ∀ s ∈ list misnamed, ∃ r, load misnamed s.id = .ok r ∧ r.summary = s := by
  intro hopens
  have hlisted : ({ id := "b" } : Summary) ∈ list misnamed := by decide +kernel
  obtain ⟨r, hload, -⟩ := hopens _ hlisted
  obtain ⟨-, content, hfile, -⟩ := load_ok_iff.mp hload
  have hnone : Fields.get? ("b" ++ ".json") misnamed = none := by decide +kernel
  rw [hnone] at hfile
  cases hfile

end Library

end EntryForm

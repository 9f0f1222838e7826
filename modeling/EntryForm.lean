import EntryForm.Json.Ordered
import EntryForm.Main
import EntryForm.Session
import EntryForm.Proofs.DocumentOrder
import EntryForm.Proofs.Nodes
import EntryForm.Proofs.Run
import EntryForm.Proofs.Derivation
import EntryForm.Proofs.DepthCut
import EntryForm.Proofs.Serial
import EntryForm.Proofs.Ids
import EntryForm.Proofs.Freshness
import EntryForm.Proofs.Repetition
import EntryForm.Proofs.Extraction
import EntryForm.Proofs.FieldPaths
import EntryForm.Proofs.Keys
import EntryForm.Proofs.Nesting
import EntryForm.Proofs.Shown
import EntryForm.Proofs.ShownRun
import EntryForm.Proofs.OwnRecords
import EntryForm.Proofs.PathValues
import EntryForm.Proofs.Occurrences
import EntryForm.Proofs.SubmittedRecords
import EntryForm.Proofs.Steps
import EntryForm.Proofs.Places
import EntryForm.Proofs.BareRecords
import EntryForm.Proofs.HiddenFields
import EntryForm.Proofs.TabSets
import EntryForm.Proofs.Openings
import EntryForm.Proofs.Answers
import EntryForm.Proofs.Refusals
import EntryForm.Proofs.Reselection
import EntryForm.Proofs.Views
import EntryForm.Proofs.Content
import EntryForm.Proofs.Isolation
import EntryForm.Proofs.Display
import EntryForm.Proofs.Escaping
import EntryForm.Proofs.Tags
import EntryForm.Proofs.WellNested
import EntryForm.Proofs.Indents
import EntryForm.Proofs.PushedMarkup
import EntryForm.Proofs.Controls
import EntryForm.Proofs.EntityText
import EntryForm.Proofs.Listings
import EntryForm.Proofs.FilledTemplates
import EntryForm.Proofs.Substitution
import EntryForm.Proofs.PageTags
import EntryForm.Proofs.ElementIds
import EntryForm.Proofs.CleanFields
import EntryForm.Proofs.CleanForms
import EntryForm.Proofs.Insertions
import EntryForm.Proofs.Collisions
import EntryForm.Proofs.FieldReferences
import EntryForm.Proofs.AddAndRemove
import EntryForm.Proofs.Clipping
import EntryForm.Proofs.FocusPaths
import EntryForm.Proofs.OrderedMaps
import EntryForm.Proofs.SetValues
import EntryForm.Proofs.CharacterReferences
import EntryForm.Proofs.RepeatCalls
import EntryForm.Proofs.Annotation
import EntryForm.Proofs.NumberRanges

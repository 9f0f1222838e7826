import EntryForm.Markup.Form
import EntryForm.Resource
import EntryForm.Submission

/-!
# Pages
-/

namespace EntryForm

namespace Markup

/-- A page around content that is markup already. -/
def page (title content base : String) : String :=
  "<!DOCTYPE html>\n<html lang=\"en\">\n<head>\n<meta charset=\"utf-8\">\n" ++
  "<meta name=\"viewport\" content=\"width=device-width, initial-scale=1.0\">\n" ++
  "<title>" ++ escape title ++ " | GEEM</title>\n" ++
  "<link rel=\"stylesheet\" href=\"" ++ escape (base ++ "/css/geem.css") ++ "\">\n" ++
  "</head>\n<body>\n" ++
  "<a href=\"#main-content\" class=\"skip-link\">Skip to main content</a>\n" ++
  "<main id=\"main-content\">\n" ++ content ++ "\n</main>\n" ++
  "<script src=\"" ++ escape (base ++ "/js/geem_form.js") ++ "\" defer></script>\n" ++
  "</body>\n</html>"

/-- The submission of a form, to be read. -/
def submission (f : Form) : List Markup :=
  [.element "pre" [attr "id" "formSubmission", attr "class" "submission"]
    [.text f.submission.pretty], newline]

/-- The page of a form with its submission. -/
def formPage (f : Form) (title base : String) : String :=
  page title (render (form f ++ submission f)) base

/-- One resource to pick. -/
def listItem (s : Summary) : List Markup :=
  [.element "li" [attr "data-resource-id" s.id, attr "data-curation" s.curation]
    [.element "a" [attr "href" ("#resource/" ++ s.id)] [.text s.title]], newline]

/-- The resources that pass a filter, ordered by title. -/
def listing (summaries : List Summary) (filter : Filter) : List Markup :=
  match (summaries.filter filter.accepts).mergeSort fun a b => !decide (b.title < a.title) with
  | [] =>
    [.element "p" [attr "class" "small"]
      [.element "i" [] [.text "No packages match."]], newline]
  | shown =>
    [.element "ul" [attr "class" "resource-list"]
      (newline :: shown.flatMap listItem), newline]

end Markup

end EntryForm

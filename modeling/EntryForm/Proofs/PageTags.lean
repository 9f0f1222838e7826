import EntryForm.Markup.Page
import EntryForm.Proofs.WellNested

/-!
# The tags of a page

Who reads two texts of whole tags one after the other reads the tags of both. So the tags of a page
are those of what stands around its content, and of the content in between. Neither the title nor
the address of the styles and scripts can add to them.
-/

namespace EntryForm.Markup

/-- Two texts whose tags are complete have the tags of both together. -/
theorem tags?_append {a b : String} {ts us : List Tag} (ha : tags? a = some ts)
    (hb : tags? b = some us) : tags? (a ++ b) = some (ts ++ us) := by
  rw [tags?] at ha hb
  rw [tags?, String.toList_append, scan?_append ha, hb, Option.map_some]

theorem tags?_escape (s : String) : tags? (escape s) = some [] := by
  have hscan := scan?_text (escapeChars_ne s.toList (show isMark '<' = true from rfl)) []
  rw [List.append_nil] at hscan
  rw [tags?, escape, String.toList_ofList, hscan]
  rfl

/-- The tags before the content of a page. -/
def pageHead (base : String) : List Tag :=
  [.start "!DOCTYPE" [⟨"html", none⟩], .start "html" [attr "lang" "en"], .start "head" [],
    .start "meta" [attr "charset" "utf-8"],
    .start "meta"
      [attr "name" "viewport", attr "content" "width=device-width, initial-scale=1.0"],
    .start "title" [], .stop "title",
    .start "link" [attr "rel" "stylesheet", attr "href" (base ++ "/css/geem.css")],
    .stop "head", .start "body" [],
    .start "a" [attr "href" "#main-content", attr "class" "skip-link"], .stop "a",
    .start "main" [attr "id" "main-content"]]

/-- The tags after the content of a page. -/
def pageFoot (base : String) : List Tag :=
  [.stop "main", .start "script" [attr "src" (base ++ "/js/geem_form.js"), ⟨"defer", none⟩],
    .stop "script", .stop "body", .stop "html"]

/-- What stands around an address that is put into a tag makes one tag with it. -/
theorem tags?_address (name last more : String) (before after : List Attribute)
    {lead close rest address : String} {ts : List Tag} (hname : isPlain name = true)
    (hplain : (before ++ attr last address :: after).all (isPlain ·.name) = true)
    (hlead : lead.toList =
      '<' :: (name.toList ++ (before.flatMap attributeChars ++ ' ' :: (last.toList ++ ['=', '"']))))
    (hclose : close.toList = '"' :: (after.flatMap attributeChars ++ '>' :: more.toList))
    (h : tags? (more ++ rest) = some ts) :
    tags? (lead ++ (escape address ++ (close ++ rest))) =
      some (.start name (before ++ attr last address :: after) :: ts) := by
  have hchars : (lead ++ (escape address ++ (close ++ rest))).toList =
      openTag name (before ++ attr last address :: after) ++ (more ++ rest).toList := by
    simp [openTag, attributeChars, attr, escape, hlead, hclose]
  rw [tags?] at h
  rw [tags?, hchars, scan?_openTag hname hplain, h, Option.map_some]

/-- The tags of a page are its own, and those of its content. -/
theorem tags?_page {content : String} {ts : List Tag} (h : tags? content = some ts)
    (title base : String) :
    tags? (page title content base) = some (pageHead base ++ (ts ++ pageFoot base)) := by
  have hend : tags? ("</script>\n" ++ "</body>\n</html>") =
      some [.stop "script", .stop "body", .stop "html"] := by decide +kernel
  have hscript : tags? ("<script src=\"" ++ (escape (base ++ "/js/geem_form.js") ++
      ("\" defer></script>\n" ++ "</body>\n</html>"))) = _ :=
    tags?_address "script" "src" "</script>\n" [] [⟨"defer", none⟩] (by decide)
      (by simp +decide) (by decide +kernel) (by decide +kernel) hend
  have hmain : tags? "\n</main>\n" = some [.stop "main"] := by decide +kernel
  have hcontent := tags?_append h (tags?_append hmain hscript)
  have hskip : tags? ("<a href=\"#main-content\" class=\"skip-link\">Skip to main content</a>\n" ++
      "<main id=\"main-content\">\n") =
        some [.start "a" [attr "href" "#main-content", attr "class" "skip-link"], .stop "a",
          .start "main" [attr "id" "main-content"]] := by decide +kernel
  have hbody : tags? ("\n" ++ "</head>\n<body>\n") = some [.stop "head", .start "body" []] := by
    decide +kernel
  have hinside := tags?_append hbody (tags?_append hskip hcontent)
  rw [String.append_assoc] at hinside
  have hlink : tags? ("<link rel=\"stylesheet\" href=\"" ++ (escape (base ++ "/css/geem.css") ++
      ("\">\n" ++ _))) = _ :=
    tags?_address "link" "href" "\n" [attr "rel" "stylesheet"] [] (by decide)
      (by simp +decide) (by decide +kernel) (by decide +kernel) hinside
  have htitle := tags?_append (tags?_escape title) (tags?_append
    (show tags? " | GEEM</title>\n" = some [.stop "title"] by decide +kernel) hlink)
  have hhead : tags? ("<!DOCTYPE html>\n<html lang=\"en\">\n<head>\n<meta charset=\"utf-8\">\n" ++
      "<meta name=\"viewport\" content=\"width=device-width, initial-scale=1.0\">\n" ++
      "<title>") =
        some [.start "!DOCTYPE" [⟨"html", none⟩], .start "html" [attr "lang" "en"],
          .start "head" [], .start "meta" [attr "charset" "utf-8"],
          .start "meta"
            [attr "name" "viewport", attr "content" "width=device-width, initial-scale=1.0"],
          .start "title" []] := by decide +kernel
  have hpage := tags?_append hhead htitle
  unfold page
  simp only [String.append_assoc] at hpage ⊢
  exact hpage

end EntryForm.Markup

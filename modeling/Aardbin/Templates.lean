import Aardbin.Html
import Aardbin.Listing

/-!
# The templates that show records and attachments

`partials/records.html`, `partials/attachments.html` and the content block of `form.html`, as the
element trees that a browser gets.  Both languages have the same templates, and `t` translates.
Classes, styles and blanks are left out.
-/

namespace Aardbin

open Html Rust

inductive FormMode
  | new
  | edit
  deriving DecidableEq, Repr

/-- The context of `form.html`. -/
structure FormView where
  lang : Lang
  mode : FormMode
  action : String
  id : String
  title : String
  content : String
  attachments : List AttachmentView
  maxAttachmentHuman : String
  maxAttachmentBytes : Nat
  maxAttachments : Nat
  deriving DecidableEq, Repr

/-- A link. -/
def anchor (href : String) (children : List Html) : Html :=
  .element "a" [("href", href)] children

namespace Templates

variable (t : String → String)

/-! ## `partials/records.html` -/

def titleRow (r : RecordView) : Html :=
  .element "div" []
    ((if r.undecryptable then [.element "div" [] [.text (t "records.undecryptable")]]
      else [anchor s!"/records/{r.id}/edit" [.text r.title]]) ++
    (if ¬ r.undecryptable then
        [.element "button"
          [("type", "button"), ("hx-post", s!"/records/{r.id}/delete"), ("hx-swap", "none"),
            ("hx-confirm", t "records.delete_confirm")]
          [.text (t "records.delete")]]
      else []))

def recordContent (r : RecordView) : List Html :=
  if r.snippet ≠ "" ∧ ¬ r.undecryptable then
    [.element "div" [("data-copy-content", r.id)] [.text r.snippet]]
  else if r.snippet ≠ "" then
    [.element "p" [] [.text r.snippet]]
  else []

/-- Only the first attachment has a link here. -/
def recordAttachments (r : RecordView) : List Html :=
  if 0 < r.attachmentCount then
    [.element "div" []
      [anchor s!"/attachments/{r.firstAttachmentId}" [.text s!"📎 {r.firstAttachmentName}"],
        .element "span" []
          (if r.attachmentCount = 1 then [.text (t "records.one_file")]
            else
              [anchor s!"/records/{r.id}/edit"
                [.text (replace (t "records.more_files") "\x7bn\x7d"
                  (toString r.extraAttachments))]])]]
  else []

def recordCard (r : RecordView) : Html :=
  .element "article" []
    (titleRow t r ::
      .element "time" [("data-ts", toString r.updatedTs), ("datetime", r.updatedText)]
        [.text r.updatedText] ::
      (recordContent r ++ recordAttachments t r))

def pageButton (page : Int) (label : String) : Html :=
  .element "button"
    [("hx-get", s!"/records?page={page}"), ("hx-target", "#records-region"),
      ("hx-swap", "outerHTML")]
    [.text label]

def pageInfo (view : ListView) : String :=
  replace
    (replace (replace (t "records.page_info") "\x7bpage\x7d" (toString view.page))
      "\x7btotal_pages\x7d" (toString view.totalPages))
    "\x7btotal\x7d" (toString view.total)

def recordsRegion (view : ListView) : Html :=
  .element "div"
    [("id", "records-region"), ("hx-get", s!"/records?page={view.page}"),
      ("hx-trigger", "aardbin:refresh from:body"), ("hx-swap", "outerHTML")]
    ((if view.records = [] then
        [.element "div" []
          [.text (t "records.empty"), .element "span" [] [.text (t "records.empty_new")],
            .text (t "records.empty_tail")]]
      else []) ++
    .element "div" [] (view.records.map (recordCard t)) ::
    (if 1 < view.totalPages then
        [.element "nav" []
          ((if view.hasPrev then [pageButton (view.page - 1) (t "records.prev")]
            else [.element "span" [] []]) ++
          .element "span" [] [.text (pageInfo t view)] ::
          (if view.hasNext then [pageButton (view.page + 1) (t "records.next")]
            else [.element "span" [] []]))]
      else []))

/-! ## `partials/attachments.html` -/

def attachmentItem (a : AttachmentView) : Html :=
  .element "li" []
    [.element "span" [] [.text "📎"],
      anchor s!"/attachments/{a.id}" [.text a.originalFilename],
      .element "span" [] [.text a.sizeText],
      anchor s!"/attachments/{a.id}" [.text (t "att.download")],
      .element "button"
        [("type", "button"), ("hx-post", s!"/records/{a.recordId}/attachments/{a.id}/delete"),
          ("hx-target", "#attachment-list"), ("hx-swap", "innerHTML"),
          ("hx-confirm", t "att.delete_confirm"), ("title", t "att.delete_title")]
        [.text "×"]]

/-! ## `form.html` -/

def recordForm (view : FormView) : Html :=
  let maxEach := replace (t "form.max_each") "\x7bsize\x7d" view.maxAttachmentHuman
  .element "form"
    [("hx-post", view.action), ("hx-encoding", "multipart/form-data"), ("hx-swap", "none"),
      ("data-max-attachment-bytes", toString view.maxAttachmentBytes),
      ("data-max-attachments", toString view.maxAttachments)]
    ([.element "label" [("for", "f-title")] [.text (t "form.title_label")],
      .element "input"
        [("id", "f-title"), ("type", "text"), ("name", "title"), ("value", view.title),
          ("maxlength", "200"), ("placeholder", t "form.title_placeholder")] [],
      .element "label" [("for", "f-content")] [.text (t "form.content_label")],
      .element "textarea"
        [("id", "f-content"), ("name", "content"), ("rows", "9"),
          ("placeholder", t "form.content_placeholder")] [.text view.content],
      .element "span" []
        [.text (t "form.attachments"),
          .element "span" []
            [.text s!"· {maxEach}"]],
      .element "div" [("id", "dropzone")] [.text (t "form.dropzone")],
      .element "input"
        [("type", "file"), ("id", "file-input"), ("name", "files"), ("multiple", ""),
          ("hidden", "")] [],
      .element "ul" [("id", "pending-files")] []] ++
    (if view.mode = .edit then
        [.element "ul" [("id", "attachment-list")] (view.attachments.map (attachmentItem t))]
      else []) ++
    [.element "div" []
      [anchor "/" [.text (t "form.cancel")],
        .element "button" [("type", "submit"), ("hx-disabled-elt", "this")]
          [.text (t "form.save")]]])

/-! ## What they offer -/

variable {t}

/-- The list offers to delete the records that it could decrypt. -/
theorem recordsRegion_delete {view : ListView} {id : String} :
    (recordsRegion t view).has ("hx-post", s!"/records/{id}/delete") = true ↔
      ∃ r ∈ view.records, r.id = id ∧ r.undecryptable = false := by
  have hcard : ∀ r : RecordView,
      (recordCard t r).has ("hx-post", s!"/records/{id}/delete") = true ↔
        r.undecryptable = false ∧ id = r.id := by
    intro r
    simp [recordCard, titleRow, recordContent, recordAttachments, anchor, toString]
  have hregion : (recordsRegion t view).has ("hx-post", s!"/records/{id}/delete") = true ↔
      ∃ r ∈ view.records, r.undecryptable = false ∧ id = r.id := by
    simp [recordsRegion, pageButton, hcard]
  rw [hregion]
  constructor
  · rintro ⟨r, hr, hopen, rfl⟩
    exact ⟨r, hr, rfl, hopen⟩
  · rintro ⟨r, hr, rfl, hopen⟩
    exact ⟨r, hr, hopen, rfl⟩

theorem attachmentPath_ne (id recordId : String) :
    s!"/attachments/{id}" ≠ s!"/records/{recordId}/edit" := by
  intro h
  have hlist := congrArg String.toList h
  simp [toString] at hlist

/-- The list links the first attachment of every record. -/
theorem recordsRegion_link {view : ListView} {id : String} :
    (recordsRegion t view).has ("href", s!"/attachments/{id}") = true ↔
      ∃ r ∈ view.records, 0 < r.attachmentCount ∧ id = r.firstAttachmentId := by
  have hcard : ∀ r : RecordView,
      (recordCard t r).has ("href", s!"/attachments/{id}") = true ↔
        0 < r.attachmentCount ∧ id = r.firstAttachmentId := by
    intro r
    have hpath := attachmentPath_ne id r.id
    simp only [toString] at hpath
    simp [recordCard, titleRow, recordContent, recordAttachments, anchor, toString, hpath]
  simp [recordsRegion, pageButton, hcard]

/-- The edit form links every attachment that it lists. -/
theorem recordForm_link {view : FormView} (hmode : view.mode = .edit) {a : AttachmentView}
    (ha : a ∈ view.attachments) :
    (recordForm t view).has ("href", s!"/attachments/{a.id}") = true := by
  have hitem : (attachmentItem t a).has ("href", s!"/attachments/{a.id}") = true := by
    simp [attachmentItem, anchor]
  have hlist : hasAny ("href", s!"/attachments/{a.id}")
      (view.attachments.map (attachmentItem t)) = true := (hasAny_map _ _).2 ⟨a, ha, hitem⟩
  simp [recordForm, hmode, hlist]

end Templates

end Aardbin

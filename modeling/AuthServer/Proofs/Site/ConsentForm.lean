import AuthServer.Proofs.Settings
import AuthServer.Proofs.Text.Markup
import AuthServer.Site.ConsentPage

/-!
# The form on the consent page

Texts on the page are escaped, so they bring no tags and end no attribute. The
page has the tags of its form, whatever is shown on it, and the one hidden field
of the form gives the transaction's id back.
-/

namespace AuthServer

open Json Text Html Markup

/-! ## What a form posts -/

/-- Name and value of a hidden field, as they are written. -/
def Text.Markup.Tag.hidden? (t : Tag) : Option (String × String) := do
  guard (t.attributes.value? "type" = some "hidden")
  return (← t.attributes.value? "name", ← t.attributes.value? "value")

def hiddenFields (page : String) : List (String × String) := (readTags page.toList).filterMap Tag.hidden?

/-- What a form with hidden fields only posts: their names and values, read. -/
def posted (page : String) : Params :=
  (hiddenFields page).map fun (name, value) => (unescape name, .str (unescape value))

namespace Site.ConsentPage

variable (p : ConsentPage)

/-! ## The page in parts -/

def scopeParts : List Part :=
  if p.scope = "" then []
  else [.text " to ", .tag ⟨"em", []⟩, .text (Html.escape p.scope), .tag ⟨"/em", []⟩]

def hiddenField : Tag :=
  ⟨"input", [("type", "hidden"), ("name", Html.escape p.field), ("value", Html.escape p.transactionId)]⟩

def cancelButton : Tag :=
  ⟨"button", [("type", "submit"), ("name", Html.escape p.cancelField), ("value", "deny")]⟩

def title : List Part :=
  [.declaration "DOCTYPE html", .text "\n", .tag ⟨"html", []⟩, .text "\n", .tag ⟨"head", []⟩,
    .tag ⟨"title", []⟩, .text "Authorize "]

def opening : List Part :=
  [.tag ⟨"/title", []⟩, .tag ⟨"/head", []⟩, .text "\n", .tag ⟨"body", []⟩, .text "\n", .tag ⟨"p", []⟩,
    .tag ⟨"strong", []⟩]

def asking : List Part := [.tag ⟨"/strong", []⟩, .text " is requesting access"]

def formOpening : List Part :=
  [.text ".", .tag ⟨"/p", []⟩, .text "\n",
    .tag ⟨"form", [("method", "post"), ("action", "/oauth/decision")]⟩, .text "\n"]

def allowButton : List Part :=
  [.text "\n", .tag ⟨"button", [("type", "submit")]⟩, .text "Allow", .tag ⟨"/button", []⟩, .text "\n"]

def closing : List Part :=
  [.text "Deny", .tag ⟨"/button", []⟩, .text "\n", .tag ⟨"/form", []⟩, .text "\n", .tag ⟨"/body", []⟩,
    .text "\n", .tag ⟨"/html", []⟩]

def parts : List Part :=
  title ++ .text (Html.escape p.clientName) :: opening ++ .text (Html.escape p.clientName) :: asking ++
    p.scopeParts ++ formOpening ++ .tag p.hiddenField :: allowButton ++ .tag p.cancelButton :: closing

/-- The tags that the page is written with. -/
def tags : List Tag :=
  [⟨"html", []⟩, ⟨"head", []⟩, ⟨"title", []⟩, ⟨"/title", []⟩, ⟨"/head", []⟩, ⟨"body", []⟩, ⟨"p", []⟩,
    ⟨"strong", []⟩, ⟨"/strong", []⟩] ++
  (if p.scope = "" then [] else [⟨"em", []⟩, ⟨"/em", []⟩]) ++
  [⟨"/p", []⟩, ⟨"form", [("method", "post"), ("action", "/oauth/decision")]⟩, p.hiddenField,
    ⟨"button", [("type", "submit")]⟩, ⟨"/button", []⟩, p.cancelButton, ⟨"/button", []⟩, ⟨"/form", []⟩,
    ⟨"/body", []⟩, ⟨"/html", []⟩]

theorem filterMap_parts : p.parts.filterMap Part.tag? = p.tags := by
  unfold parts scopeParts tags
  split <;> rfl

theorem chars_scopeParts : p.scopeParts.flatMap Part.chars = p.scopeNote.toList := by
  unfold scopeParts scopeNote
  split <;> simp [Part.chars, Tag.chars]

theorem chars_hiddenField :
    (Part.tag p.hiddenField).chars = "<input type=\"hidden\" name=\"".toList ++
      ((Html.escape p.field).toList ++ ("\" value=\"".toList ++
        ((Html.escape p.transactionId).toList ++ "\">".toList))) := by
  simp [Part.chars, Tag.chars, attributeChars, hiddenField]

theorem chars_cancelButton :
    (Part.tag p.cancelButton).chars = "<button type=\"submit\" name=\"".toList ++
      ((Html.escape p.cancelField).toList ++ "\" value=\"deny\">".toList) := by
  simp [Part.chars, Tag.chars, attributeChars, cancelButton]

theorem chars_title : title.flatMap Part.chars = "<!DOCTYPE html>\n<html>\n<head><title>Authorize ".toList := by
  simp [title, Part.chars, Tag.chars]

theorem chars_opening : opening.flatMap Part.chars = "</title></head>\n<body>\n<p><strong>".toList := by
  simp [opening, Part.chars, Tag.chars]

theorem chars_asking : asking.flatMap Part.chars = "</strong> is requesting access".toList := by
  simp [asking, Part.chars, Tag.chars]

theorem chars_formOpening : formOpening.flatMap Part.chars ++ "<input type=\"hidden\" name=\"".toList =
    ".</p>\n<form method=\"post\" action=\"/oauth/decision\">\n<input type=\"hidden\" name=\"".toList := by
  simp [formOpening, Part.chars, Tag.chars, attributeChars]

theorem chars_allowButton :
    "\">".toList ++ (allowButton.flatMap Part.chars ++ "<button type=\"submit\" name=\"".toList) =
      "\">\n<button type=\"submit\">Allow</button>\n<button type=\"submit\" name=\"".toList := by
  simp [allowButton, Part.chars, Tag.chars, attributeChars]

theorem chars_closing : "\" value=\"deny\">".toList ++ closing.flatMap Part.chars =
    "\" value=\"deny\">Deny</button>\n</form>\n</body>\n</html>".toList := by
  simp [closing, Part.chars, Tag.chars]

theorem chars_parts : p.parts.flatMap Part.chars = p.text.toList := by
  unfold parts text
  simp only [List.flatMap_append, List.flatMap_cons, List.append_assoc, chars_title, chars_opening,
    chars_asking, chars_scopeParts, chars_hiddenField, chars_cancelButton, Part.chars.eq_1]
  -- the page writes the ends of the parts together
  simp only [String.toList_append, ← chars_formOpening, ← chars_allowButton, ← chars_closing, List.append_assoc]

/-! ## What is shown brings no markup -/

theorem free_escape (s : String) : Free ['<', '>', '"'] (Html.escape s).toList :=
  (faithful_escape s).clean.mono (by decide)

theorem plain_text_escape (s : String) : (Part.text (Html.escape s)).Plain := (free_escape s).mono (by decide)

theorem plain_hiddenField : p.hiddenField.Plain where
  name := show Free _ "input".toList by decide
  keys := by
    simp only [hiddenField, List.forall_mem_cons]
    exact ⟨by decide, by decide, by decide, nofun⟩
  values := by
    simp only [hiddenField, List.forall_mem_cons]
    exact ⟨by decide, free_escape p.field, free_escape p.transactionId, nofun⟩

theorem plain_cancelButton : p.cancelButton.Plain where
  name := show Free _ "button".toList by decide
  keys := by
    simp only [cancelButton, List.forall_mem_cons]
    exact ⟨by decide, by decide, by decide, nofun⟩
  values := by
    simp only [cancelButton, List.forall_mem_cons]
    exact ⟨by decide, free_escape p.cancelField, by decide, nofun⟩

theorem plain_scopeParts : ∀ x ∈ p.scopeParts, x.Plain := by
  unfold scopeParts
  split
  · nofun
  · simp only [List.forall_mem_cons]
    exact ⟨by decide, by decide, plain_text_escape p.scope, by decide, nofun⟩

theorem plain_parts : ∀ x ∈ p.parts, x.Plain := by
  have htitle : ∀ x ∈ title, x.Plain := by decide
  have hopening : ∀ x ∈ opening, x.Plain := by decide
  have hasking : ∀ x ∈ asking, x.Plain := by decide
  have hform : ∀ x ∈ formOpening, x.Plain := by decide
  have hallow : ∀ x ∈ allowButton, x.Plain := by decide
  have hclosing : ∀ x ∈ closing, x.Plain := by decide
  simp only [parts, List.forall_mem_append, List.forall_mem_cons]
  exact ⟨⟨⟨⟨⟨⟨htitle, plain_text_escape p.clientName, hopening⟩, plain_text_escape p.clientName, hasking⟩,
    plain_scopeParts p⟩, hform⟩, plain_hiddenField p, hallow⟩, plain_cancelButton p, hclosing⟩

/-- Whatever is shown on it, the page has the tags of its form. -/
theorem readTags_text : readTags p.text.toList = p.tags := by
  rw [← chars_parts, readTags_chars (plain_parts p), filterMap_parts]

theorem hiddenFields_text : hiddenFields p.text = [(Html.escape p.field, Html.escape p.transactionId)] := by
  rw [hiddenFields, readTags_text, tags]
  split <;> rfl

theorem posted_text : posted p.text = [(p.field, .str p.transactionId)] := by
  rw [posted, hiddenFields_text]
  simp [unescape_escape]

/-- Escaping is safe and loses nothing: the page has its own tags only, and its one hidden field gives
the id back to a request that posts the form. -/
theorem form_returns_the_id :
    (∀ s, Faithful s (Html.escape s)) ∧ Function.Injective Html.escape ∧
      ∀ p : ConsentPage, readTags p.text.toList = p.tags ∧
        hiddenFields p.text = [(Html.escape p.field, Html.escape p.transactionId)] ∧
        unescape (Html.escape p.transactionId) = p.transactionId ∧
        ∀ (o : TransactionOptions) (r : Request), o.field = p.field → p.transactionId ≠ "" →
          r.query.value? p.field = none → r.body = some (posted p.text) →
          Store.idParam o r = .ok p.transactionId := by
  refine ⟨faithful_escape, Function.LeftInverse.injective unescape_escape, fun p =>
    ⟨readTags_text p, hiddenFields_text p, unescape_escape _, fun o r hfield hid hquery hbody => ?_⟩⟩
  have hsends : r.Sends o.field p.transactionId := by
    rw [hfield]
    exact .body hquery (by simp [Request.bodyValue?, hbody, posted_text, Entries.value?])
  exact hsends.idParam_eq hid

/-- Names with an attribute, a tag and entities in them. -/
def contrived : ConsentPage where
  clientName := "</title><form action='/'>"
  scope := "<input type=\"hidden\" name=\"id\" value=\"x\">"
  field := "id value="
  transactionId := "\">&amp;lt;'"
  cancelField := "\" value=\"&#39;"

theorem contrived_returns_the_id :
    hiddenFields contrived.text = [("id value=", "&quot;&gt;&amp;amp;lt;&#39;")] ∧
      Store.idParam { TransactionOptions.standard with field := "id value=" }
        { Request.empty with body := some [("id value=", .str "\">&amp;lt;'")] } = .ok "\">&amp;lt;'" := by
  obtain ⟨-, -, hall⟩ := form_returns_the_id
  obtain ⟨-, hhidden, -, hid⟩ := hall contrived
  refine ⟨hhidden.trans (by decide), hid _ _ rfl (by decide) rfl ?_⟩
  rw [posted_text]
  rfl

end Site.ConsentPage

end AuthServer

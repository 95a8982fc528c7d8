import AuthServer.Http.Request
import AuthServer.Json.Writer
import AuthServer.Site.Transport
import AuthServer.Text.Html

/-!
# The consent page

Asks the resource owner. The form posts the transaction id back; denying
posts the cancel field too. Every text on the page is escaped, and the page
may not be framed.
-/

namespace AuthServer.Site

open Json

structure ConsentPage where
  clientName : String
  scope : String
  /-- The form field that carries the transaction id. -/
  field : String
  transactionId : String
  cancelField : String
  deriving DecidableEq, Repr

namespace ConsentPage

/-- What a transaction shows the resource owner. -/
def ofTransaction (t : Option Transaction) (field transactionId cancelField : String) : ConsentPage where
  clientName :=
    (((t.bind (·.client)).bind (·.member? "name")).bind Value.asString?).getD "Unknown client"
  scope := ((t.bind (·.request.scope)).map (joined " ")).getD ""
  field := field
  transactionId := transactionId
  cancelField := cancelField

def scopeNote (p : ConsentPage) : String :=
  if p.scope = "" then "" else " to <em>" ++ Text.Html.escape p.scope ++ "</em>"

def text (p : ConsentPage) : String :=
  let client := Text.Html.escape p.clientName
  "<!DOCTYPE html>\n<html>\n<head><title>Authorize " ++ client ++ "</title></head>\n<body>\n<p><strong>" ++
  client ++ "</strong> is requesting access" ++ p.scopeNote ++
  ".</p>\n<form method=\"post\" action=\"/oauth/decision\">\n<input type=\"hidden\" name=\"" ++
  Text.Html.escape p.field ++ "\" value=\"" ++ Text.Html.escape p.transactionId ++
  "\">\n<button type=\"submit\">Allow</button>\n<button type=\"submit\" name=\"" ++
  Text.Html.escape p.cancelField ++ "\" value=\"deny\">Deny</button>\n</form>\n</body>\n</html>"

def answer (p : ConsentPage) : HttpAnswer where
  status := 200
  headers :=
    [("content-type", "text/html; charset=utf-8"), ("x-frame-options", "DENY"),
     ("content-security-policy", "frame-ancestors 'none'"), ("referrer-policy", "no-referrer")]
  body := p.text

end ConsentPage

end AuthServer.Site

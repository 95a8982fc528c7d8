import AuthServer.Http.Request
import AuthServer.Json.Number

/-!
# The host's session

The host keeps a session of its own, each value as its JSON text. Only the
entry with the pending transactions is copied to the request and back; an
entry without transactions is dropped, every other entry is left alone.
-/

namespace AuthServer.Site

open Json

abbrev HostSession := Params

namespace HostSession

/-- A value is kept as text, and comes back as it reads. -/
def insert (s : HostSession) (key : String) (v : Value) : HostSession := s.put key v.reread

/-- The request always ends up with a session. -/
def load (s : HostSession) (key : String) (r : Request) : Request :=
  { r with session := some ((s.value? key).map fun v => (key, v)).toList }

/-- A request that never loaded the session leaves it as it is. -/
def save (s : HostSession) (key : String) (r : Request) : HostSession :=
  match r.session with
  | none => s
  | some session =>
    match session.value? key with
    | some (.obj (e :: es)) => insert s key (.obj (e :: es))
    | _ => s.remove key

end HostSession

end AuthServer.Site

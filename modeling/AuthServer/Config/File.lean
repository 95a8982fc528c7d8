import AuthServer.Config.Hocon.Substitution

/-!
# Configuration files

A file is a HOCON document whose values convert to what their fields take. The
flat variables of the environment stand in for a file that cannot be used.
-/

namespace AuthServer.Config

/-- Why a configuration file gives no configuration. -/
inductive FileError where
  | notFound (path : String)
  | malformed
  | unresolved
  deriving DecidableEq, Repr

/-- What went wrong; details of a malformed file are not told. -/
def FileError.message : FileError → String
  | notFound path => "Configuration file not found: " ++ path
  | malformed => "Failed to load HOCON file"
  | unresolved => "Failed to parse and resolve HOCON"

/-- The configuration of a file's text. The variable for the fragment list counts before the file. -/
def ofHocon (text : String) (env : Environment) : Except FileError Config :=
  match Hocon.document? text.toList with
  | none => .error .malformed
  | some members =>
    match (Hocon.resolveMembers members env members).bind fun ms => read converting (.obj ms) with
    | none => .error .unresolved
    | some c =>
      match env.value? fragmentVariable with
      | some list => .ok { c with fragment := splitList list }
      | none => .ok c

def standardFile : String := "application.conf"

def ofFile (file : Option String) (env : Environment) : Except FileError Config :=
  match file with
  | none => .error (.notFound standardFile)
  | some text => ofHocon text env

/-- The file if it can be used, the flat variables otherwise. -/
def load (file : Option String) (env : Environment) : Config :=
  match ofFile file env with
  | .ok c => c
  | .error _ => ofFlat env

end AuthServer.Config

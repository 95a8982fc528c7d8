import AuthServer.Json.Value

/-!
# Deep merge

`merge target source` lets the source win: objects merge member by member,
any other value replaces what was there, and null leaves the target alone.
An object that meets no object goes in as it is, nulls included.
-/

namespace AuthServer.Json

mutual

def merge (target : Params) : List (String × Value) → Params
  | [] => target
  | (k, v) :: rest => merge (mergeMember target k v) rest

def mergeMember (target : Params) (key : String) : Value → Params
  | .null => target
  | .obj incoming =>
    match target.value? key with
    | some (.obj existing) => target.put key (.obj (merge existing incoming))
    | _ => target.put key (.obj incoming)
  | v => target.put key v

end

@[simp] theorem merge_nil (target : Params) : merge target [] = target := by simp [merge]

/-- Nothing to merge leaves an absent map absent. -/
def mergeOption (target : Option Params) : Option Params → Option Params
  | none => target
  | some source => some (merge (target.getD []) source)

end AuthServer.Json

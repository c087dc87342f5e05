import Irori.Home.Ids

/-!
# Secrets

What `secrets.toml` holds: a table for each extension, with tables inside it.
-/

namespace Irori.Config

abbrev Table := List (String × Json)

namespace Table

def put (key : String) (value : Json) : Table → Table
  | [] => [(key, value)]
  | (k, v) :: table =>
    if key = k then (key, value) :: table
    else if key < k then (key, value) :: (k, v) :: table
    else (k, v) :: put key value table

def take (key : String) (table : Table) : Table := table.filter fun entry => entry.1 ≠ key

/-- Puts a secret at a path, making the tables on the way. The key of something in the way that
isn't a table is the error. -/
def set (value : String) : List String → Table → Except String Table
  | [], table => .ok table
  | [last], table => .ok (put last (.string value) table)
  | key :: path, table =>
    match table.lookup key with
    | none => (set value path []).map fun inner => put key (.object inner) table
    | some (.object inner) => (set value path inner).map fun inner => put key (.object inner) table
    | some _ => .error key

def remove : List String → Table → Table
  | [], table => table
  | [last], table => take last table
  | key :: path, table =>
    match table.lookup key with
    | some (.object inner) =>
      if (remove path inner).isEmpty then take key table
      else put key (.object (remove path inner)) table
    | _ => table

end Table

abbrev ExtensionSettings := Map ExtensionId Table

namespace ExtensionSettings

variable (settings : ExtensionSettings)

def of (extension : ExtensionId) : Json := .object ((settings[extension]?).getD [])

def set (extension : ExtensionId) (path : List String) (value : String) :
    Except String ExtensionSettings :=
  if path = [] then .error "a secret needs somewhere to go: the path is empty"
  else if path.contains "" then .error "a secret's path can't have an empty key in it"
  else
    match Table.set value path ((settings[extension]?).getD []) with
    | .ok table => .ok (settings.insert extension table)
    | .error key =>
      .error (s!"`{key}` in `{extension.text}`'s secrets is a value, not a table, so nothing " ++
        "can go inside it")

def remove (extension : ExtensionId) (path : List String) : ExtensionSettings :=
  match settings[extension]? with
  | none => settings
  | some table =>
    if (Table.remove path table).isEmpty then settings.erase extension
    else settings.insert extension (Table.remove path table)

end ExtensionSettings

end Irori.Config

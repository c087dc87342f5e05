import Irori.Config.Secrets

/-!
# People

Who is allowed in, and the hash of each one's password. The rooms a person is held to are left
out.
-/

namespace Irori.Config

inductive Role
  | owner
  /-- Sees and controls what is theirs. -/
  | user
  deriving DecidableEq

def Role.runsTheHome : Role → Bool
  | .owner => true
  | .user => false

structure User where
  id : UserId
  name : String
  role : Role
  deriving DecidableEq

/-- Why some users can't stand, the same for a hand-edited file and for a request. -/
def checkUsers (users : List User) : Except String Unit :=
  if users ≠ [] ∧ (users.any fun user => user.role.runsTheHome) = false then
    .error "a home with people in it needs an owner: give one of them `role = \"owner\"`"
  else .ok ()

def passwordMinLen : Nat := 8

def passwordMaxLen : Nat := 256

def checkPassword (password : String) : Except String Unit :=
  if password.length < passwordMinLen then .error "a password needs at least 8 characters"
  else if passwordMaxLen < password.length then .error "a password is at most 256 characters"
  else .ok ()

/-- The characters of a name that an id keeps, with one `_` for what stands between them. -/
def slugChars : List Char → List Char → List Char
  | slug, [] => slug
  | slug, c :: rest =>
    if c.isAlphanum then slugChars (slug ++ [c.toLower]) rest
    else if slug ≠ [] ∧ slug.getLast? ≠ some '_' then slugChars (slug ++ ['_']) rest
    else slugChars slug rest

def trimEnd (slug : List Char) : List Char := slug.rdropWhile (· == '_')

/-- An id made from a name. `none` when nothing in the name can be part of an id. -/
def userIdFrom (name : String) : Option UserId :=
  let slug := trimEnd ((trimEnd (slugChars [] name.toList)).take 48)
  if slug = [] then none else (Slug.parse "user id" (String.ofList slug)).toOption

structure People where
  users : List User
  /-- By user. A person with no entry has no password. -/
  hashes : Map UserId String
  deriving DecidableEq

namespace People

/-- The table of `secrets.toml` that password hashes are kept in. -/
def table : ExtensionId := ⟨"users", by decide⟩

def passwords : String := "passwords"

def hashIn (secrets : ExtensionSettings) (id : UserId) : Option String :=
  match ((secrets.of table).get? passwords).bind (·.get? id.text) with
  | some (.string hash) => if hash = "" then none else some hash
  | _ => none

def of (users : List User) (secrets : ExtensionSettings) : People where
  users := users
  hashes := users.foldl (fun hashes user =>
    match hashIn secrets user.id with
    | some hash => hashes.insert user.id hash
    | none => hashes) ∅

variable (people : People)

def user (id : UserId) : Option User := people.users.find? fun user => user.id = id

def has (user : User) : Bool := people.hashes.contains user.id

/-- Whether an owner has a password. Until one has, the welcome sets one up. -/
def owned : Bool := people.users.any fun user => user.role.runsTheHome && people.has user

/-- Whether anyone has a password, which is what makes Irori ask who is there. -/
def locked : Bool := !people.hashes.isEmpty

def stillRun : Except String Unit :=
  match checkUsers people.users with
  | .error message => .error message
  | .ok () =>
    if people.users.any people.has ∧ people.owned = false then
      .error ("an owner needs a password before anybody else has one: otherwise nobody " ++
        "could sign in to run the home")
    else .ok ()

def without (id : UserId) : People :=
  ⟨people.users.filter fun user => user.id ≠ id, people.hashes.erase id⟩

def canLeave (id : UserId) : Except String Unit :=
  match people.user id with
  | none => .error s!"there's nobody with the id `{id.text}`"
  | some _ => (people.without id).stillRun

def canDemote (id : UserId) : Except String Unit :=
  stillRun { people with
    users := people.users.map fun user => if user.id = id then { user with role := .user } else user }

def kept : People :=
  { people with hashes := people.hashes.filter fun id _ => (people.user id).isSome }

/-- Changes the people as one write. What can't stand is refused with nothing written. -/
def edit {α : Type} (change : People → Except String (People × α)) :
    Except String (People × α) :=
  match change people with
  | .error message => .error message
  | .ok (people, made) =>
    match people.stillRun with
    | .error message => .error message
    | .ok () => .ok (people.kept, made)

end People

end Irori.Config

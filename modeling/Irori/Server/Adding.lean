import Irori.Server.Auth

/-!
# Adding people

How somebody joins a home that has an owner, and the changes of the people one after the other. The
rooms a person is held to are left out.
-/

namespace Irori.Server
open Config

/-- The id of a new person: the one their name makes, or that with a number after it where it is
somebody's. -/
def newUserId (people : People) (base : UserId) : Option UserId :=
  ((List.range' 1 99).map fun n =>
    if n = 1 then base
    else ((Slug.parse "user id" (base.text ++ "_" ++ n.repr)).toOption).getD base).find? fun id =>
      (people.user id).isNone

def addedUser (x : Crypto) (name : String) (role : Role) (hash : Option String) (base : UserId)
    (people : People) : Except String (People × UserId) :=
  if people.locked = false then
    .error ("set the home up first: it needs an owner with a password before " ++
      "anybody else is let in")
  else
    match hash with
    | none =>
      .error "everybody in the home needs a password: it is what Irori tells people apart by"
    | some hash =>
      if people.users.any fun user => x.fold user.name = x.fold name then
        .error ("there's already somebody called " ++ name)
      else
        match newUserId people base with
        | none => .error "too many people share that name"
        | some id =>
          let user : User := ⟨id, name, role⟩
          let users := (people.users ++ [user]).insertionSort fun a b => a.id ≤ b.id
          .ok (⟨users, people.hashes.insert id hash⟩, id)

inductive PeopleChange
  | setUp (name hash : String)
  | add (name : String) (role : Role) (hash : Option String)
  | edit (call : EditCall) (hash : Option String)

def PeopleChange.apply (x : Crypto) (people : People) : PeopleChange → Option People
  | .setUp name hash =>
    (userIdFrom name).bind fun fresh => ((people.edit (ownerOf name hash fresh)).toOption).map (·.1)
  | .add name role hash =>
    (userIdFrom name).bind fun base =>
      ((people.edit (addedUser x name role hash base)).toOption).map (·.1)
  | .edit call hash => ((people.edit (call.change x hash)).toOption).map (·.1)

end Irori.Server

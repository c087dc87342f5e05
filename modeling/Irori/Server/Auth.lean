import Irori.Config.People
import Irori.Server.Tokens

/-!
# Sign-ins

Sessions are kept in the database as well as in memory, so a restart doesn't sign everybody out.
Only a token's fingerprint is kept anywhere. Requests run side by side: each is at some stage, and
goes from one to the next by one look at what they share, or one change of it.
-/

namespace Irori.Server
open Config

structure Session where
  user : UserId
  expires : Nat
  deriving DecidableEq

structure SessionRow where
  user : String
  expires : Int
  deriving DecidableEq

def sessionLife : Nat := 30 * 24 * 60 * 60

def Session.row (session : Session) : SessionRow :=
  ⟨session.user.text, min session.expires maxSeconds⟩

def SessionRow.read (row : SessionRow) : Option Session :=
  match (Slug.parse "user id" row.user).toOption with
  | none => none
  | some user => if 0 ≤ row.expires then some ⟨user, row.expires.toNat⟩ else none

/-- A token's fingerprint, how a password is hashed and checked, and a name as it is compared:
trimmed, in lower case. -/
structure Crypto where
  fingerprint : String → String
  hash (password salt : String) : String
  verify (password hash : String) : Bool
  fold : String → String

/-- What ends sessions. Where it comes with a change of the people, it carries how many changes
there were by then. -/
inductive Ended
  | one (hash : String)
  /-- A person who is gone, or has a new password. The session it was set on stays. -/
  | person (user : UserId) (edition : Nat) (kept : Option String)
  | everybody (owner : UserId) (edition : Nat)
  deriving DecidableEq

def Ended.keeps (hash : String) (session : Session) : Ended → Bool
  | .one other => hash ≠ other
  | .person user _ kept => session.user ≠ user || kept = some hash
  | .everybody .. => false

structure Actor where
  user : Option UserId
  owner : Bool
  deriving DecidableEq

structure UserEdit where
  name : Option String
  role : Option Role
  /-- An empty one is refused: a password is changed, never taken away. -/
  password : Option String
  currentPassword : Option String
  deriving DecidableEq

structure EditCall where
  who : Actor
  whole : Bool
  id : UserId
  edit : UserEdit
  cookie : Option String
  deriving DecidableEq

inductive Ask
  | signIn (user password : String)
  | signOut (cookie : Option String)
  | editUser (call : EditCall)
  | removeUser (id : UserId)
  | setUp (name password : String)
  | visit (token : String)
  deriving DecidableEq

inductive Task
  | asked (ask : Ask)
  /-- The password is about to be checked against the hash there was, after `edition` changes. -/
  | checking (found : Option UserId) (password : String) (hash : Option String) (edition : Nat)
  | hashing (call : EditCall)
  | refusing (call : EditCall) (hash : Option String) (locks : Bool)
  | writing (call : EditCall) (hash : Option String) (locks : Bool)
  | removing (id : UserId)
  | owning (name hash : String) (fresh : UserId)
  /-- Sessions are about to be forgotten in memory. Then somebody is signed in, perhaps. -/
  | ending (which : Ended) (next : Option (UserId × Nat))
  /-- Sessions that ran out are about to be forgotten in memory. -/
  | expiring (now : Nat)
  | dropping (which : Option Ended) (gone : List String) (next : Option (UserId × Nat))
  | beginning (user : UserId) (edition : Nat) (done : Option Ended)
  | remembering (hash : String) (session : Session) (done : Option Ended)
  deriving DecidableEq

/-- What a step of a request meets: whether what can fail works (the database, the file, the lock
against too many tries, the random source), and what is drawn at random. -/
structure Luck where
  works : Bool
  drawn : String
  deriving DecidableEq

/-- Sessions in the database and in memory, the people, and the requests under way. The rest only
notes what happened: how often the people changed, which sessions were begun for whom and after
how many changes their password was looked up, and which endings were answered. -/
structure Auth where
  people : People
  rows : Map String SessionRow
  sessions : Map String Session
  now : Nat
  tasks : Map Nat Task
  edition : Nat
  begun : Map String (UserId × Nat)
  answered : List Ended

namespace Auth

def start (people : People) (now : Nat) : Auth := ⟨people, ∅, ∅, now, ∅, 0, ∅, []⟩

variable (x : Crypto) (s : Auth)

/-- Whose session a token is, if it is anybody's still. -/
def whose (token : String) : Option UserId :=
  match s.sessions[x.fingerprint token]? with
  | none => none
  | some session => if s.now < session.expires then some session.user else none

def bearer (people : People) (token : String) : Option User :=
  ((s.whose x token).filter fun id => people.hashes.contains id).bind people.user

def proceed (n : Nat) (task : Task) : Auth := { s with tasks := s.tasks.insert n task }

def leave (n : Nat) : Auth := { s with tasks := s.tasks.erase n }

def answer (n : Nat) : Option Ended → Auth
  | some which => { s with tasks := s.tasks.erase n, answered := which :: s.answered }
  | none => s.leave n

def written (people : People) : Auth := { s with people := people, edition := s.edition + 1 }

def forgetting (keep : String → Session → Bool) : Auth :=
  { s with sessions := s.sessions.filter keep }

def goners (keep : String → Session → Bool) : List String :=
  (s.sessions.toList.filter fun entry => !keep entry.1 entry.2).map Prod.fst

def deleteRow (hash : String) : Auth := { s with rows := s.rows.erase hash }

def storeRow (hash : String) (session : Session) (edition : Nat) (works : Bool) : Auth :=
  { s with
    rows := if works then s.rows.insert hash session.row else s.rows
    begun := s.begun.insert hash (session.user, edition) }

def remember (hash : String) (session : Session) : Auth :=
  { s with sessions := s.sessions.insert hash session }

end Auth

def ownerOf (name hash : String) (fresh : UserId) (people : People) :
    Except String (People × UserId) :=
  if people.owned then
    .error "this home already has an owner; people are added in Settings"
  else
    match people.users.findIdx? fun user => user.role.runsTheHome with
    | some i =>
      let users := people.users.modify i fun user => { user with name := name }
      let id := (users[i]?.map User.id).getD fresh
      .ok (⟨users, people.hashes.insert id hash⟩, id)
    | none =>
      let owner : User := ⟨fresh, name, .owner⟩
      let users := (people.users ++ [owner]).insertionSort fun a b => a.id ≤ b.id
      .ok (⟨users, people.hashes.insert fresh hash⟩, fresh)

namespace EditCall

variable (x : Crypto) (call : EditCall)

def own : Bool := call.who.user = some call.id

def clears : Bool := call.edit.password = some ""

def fresh : Option String := call.edit.password.filter (· ≠ "")

def allowed : Bool :=
  (call.who.owner || (call.own && call.edit.role.isNone)) &&
    (call.who.owner || call.whole || call.edit.name.isNone)

def proven (people : People) (works : Bool) : Bool :=
  if call.own && call.edit.password.isSome then
    match people.hashes[call.id]?, call.edit.currentPassword with
    | none, _ => true
    | some _, none => false
    | some hash, some password => works && x.verify password hash
  else true

def nameTaken (people : People) : Bool :=
  match call.edit.name with
  | none => false
  | some name =>
    people.users.any fun user => user.id ≠ call.id && x.fold user.name = x.fold name

def demotes (people : People) : Bool :=
  call.edit.role = some .user && ((people.user call.id).any fun user => user.role.runsTheHome)

def passes (people : People) (works : Bool) : Bool :=
  !call.clears && (people.user call.id).isSome && !call.nameTaken x people &&
    (!call.demotes people || ((people.canDemote call.id).isOk && works))

def changed (user : User) : User :=
  if user.id = call.id then
    { user with
      name := call.edit.name.getD user.name
      role := call.edit.role.getD user.role }
  else user

def change (hash : Option String) (people : People) : Except String (People × Unit) :=
  if (people.user call.id).isNone then .error s!"there's nobody with the id `{call.id.text}`"
  else if call.nameTaken x people then
    .error ("there's already somebody called " ++ call.edit.name.getD "")
  else if call.clears then
    .error "a password can be changed, not taken away: everybody in the home has one"
  else
    let hashes := match hash with
      | some hash => people.hashes.insert call.id hash
      | none => people.hashes
    .ok (⟨people.users.map call.changed, hashes⟩, ())

end EditCall

def removed (id : UserId) (people : People) : Except String (People × Unit) :=
  if (people.user id).isNone then .error s!"there's nobody with the id `{id.text}`"
  else .ok (people.without id, ())

def found (x : Crypto) (people : People) (typed : String) : Option User :=
  people.users.find? fun user => user.id.text = x.fold typed || x.fold user.name = x.fold typed

namespace Auth

variable (x : Crypto) (s : Auth) (n : Nat) (luck : Luck)

def answerAsk : Ask → Auth
  | .signIn user password =>
    let found := (found x s.people user).map User.id
    if luck.works then
      s.proceed n (.checking found password (found.bind (s.people.hashes[·]?)) s.edition)
    else s.leave n
  | .signOut none => s.leave n
  | .signOut (some token) => s.proceed n (.ending (.one (x.fingerprint token)) none)
  | .editUser call =>
    if call.allowed && call.proven x s.people luck.works then s.proceed n (.hashing call)
    else s.leave n
  | .removeUser id =>
    if (s.people.canLeave id).isOk && luck.works then s.proceed n (.removing id) else s.leave n
  | .setUp name password =>
    if !s.people.owned && (checkPassword password).isOk && luck.works then
      match userIdFrom name with
      | some fresh => s.proceed n (.owning name (x.hash password luck.drawn) fresh)
      | none => s.leave n
    else s.leave n
  | .visit token =>
    match s.sessions[x.fingerprint token]? with
    | some session => if s.now < session.expires then s.leave n else s.proceed n (.expiring s.now)
    | none => s.leave n

/-- The new password is hashed, and whether it locks the home looked up. -/
def hashNew (call : EditCall) : Auth :=
  match call.fresh with
  | none => s.proceed n (.refusing call none false)
  | some password =>
    if (checkPassword password).isOk && luck.works then
      s.proceed n (.refusing call (some (x.hash password luck.drawn)) !s.people.locked)
    else s.leave n

/-- A change of a person is written. With a new password, every other screen signed in as them is
to be signed out, and where the home starts to ask who is there, this one signed in. -/
def writeEdit (call : EditCall) (hash : Option String) (locks : Bool) : Auth :=
  match s.people.edit (call.change x hash), luck.works with
  | .ok (people, ()), true =>
    if hash.isSome then
      (s.written people).proceed n
        (.ending (.person call.id (s.edition + 1) (call.cookie.map x.fingerprint))
          (if locks then some (call.id, s.edition + 1) else none))
    else (s.written people).leave n
  | _, _ => s.leave n

def writeRemoval (id : UserId) : Auth :=
  match s.people.edit (removed id), luck.works with
  | .ok (people, ()), true =>
    (s.written people).proceed n (.ending (.person id (s.edition + 1) none) none)
  | _, _ => s.leave n

def writeOwner (name hash : String) (fresh : UserId) : Auth :=
  match s.people.edit (ownerOf name hash fresh), luck.works with
  | .ok (people, id), true =>
    (s.written people).proceed n
      (.ending (.everybody id (s.edition + 1)) (some (id, s.edition + 1)))
  | _, _ => s.leave n

/-- Rows are deleted one by one. The first that can't be ends it, which is only logged. -/
def dropRows (which : Option Ended) (gone : List String) (next : Option (UserId × Nat)) :
    Auth :=
  match gone with
  | hash :: gone =>
    if luck.works then (s.deleteRow hash).proceed n (.dropping which gone next)
    else s.proceed n (.dropping which [] next)
  | [] =>
    match next with
    | some (user, edition) => s.proceed n (.beginning user edition which)
    | none => s.answer n which

def goTask : Task → Auth
  | .asked ask => s.answerAsk x n luck ask
  | .checking (some user) password (some hash) edition =>
    if x.verify password hash then s.proceed n (.beginning user edition none) else s.leave n
  | .checking .. => s.leave n
  | .hashing call => s.hashNew x n luck call
  | .refusing call hash locks =>
    if call.passes x s.people luck.works then s.proceed n (.writing call hash locks)
    else s.leave n
  | .writing call hash locks => s.writeEdit x n luck call hash locks
  | .removing id => s.writeRemoval n luck id
  | .owning name hash fresh => s.writeOwner n luck name hash fresh
  | .ending which next =>
    let keep hash session := which.keeps hash session
    (s.forgetting keep).proceed n (.dropping (some which) (s.goners keep) next)
  | .expiring now =>
    let keep (_ : String) (session : Session) := decide (now < session.expires)
    (s.forgetting keep).proceed n (.dropping none (s.goners keep) none)
  | .dropping which gone next => s.dropRows n luck which gone next
  | .beginning user edition done =>
    let hash := x.fingerprint luck.drawn
    let session : Session := ⟨user, s.now + sessionLife⟩
    (s.storeRow hash session edition luck.works).proceed n (.remembering hash session done)
  | .remembering hash session done => (s.remember hash session).answer n done

/-- The process ends with every request under way, and another reads who was signed in: rows that
ran out are deleted first. A database that can't be read starts with nobody. -/
def restart (deletes reads : Bool) : Auth :=
  let now : Int := min s.now maxSeconds
  let rows := if deletes then s.rows.filter fun _ row => now < row.expires else s.rows
  { s with
    rows := rows
    sessions := if deletes && reads then rows.filterMap fun _ row => row.read else ∅
    tasks := ∅ }

end Auth

inductive AuthEvent
  | ask (request : Nat) (ask : Ask)
  | go (request : Nat) (luck : Luck)
  | reload (people : People)
  | clock (now : Nat)
  | restart (deletes reads : Bool)
  deriving DecidableEq

namespace Auth

variable (x : Crypto) (s : Auth)

def after : AuthEvent → Auth
  | .ask n ask => if s.tasks.contains n then s else s.proceed n (.asked ask)
  | .go n luck =>
    match s.tasks[n]? with
    | some task => s.goTask x n luck task
    | none => s
  | .reload people => s.written people
  | .clock now => { s with now := now }
  | .restart deletes reads => s.restart deletes reads

def afterAll (events : List AuthEvent) : Auth := events.foldl (fun s event => s.after x event) s

end Auth

end Irori.Server

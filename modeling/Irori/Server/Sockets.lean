import Irori.Server.Auth

/-!
# Live sockets

Open sockets, so ending a sign-in or a token can close the ones it opened. A socket is let in by the
guard, then what kind of seat it takes is worked out, then it is seated: requests that end sign-ins
and tokens run side by side with that, each going from one step to the next by one look at what they
share, or one change of it. The rows of the database are left out, and so is the address check that
turns another website's page away before any of it.
-/

namespace Irori.Server
open Config

inductive SeatKind
  | open_
  | session (hash : String) (user : UserId)
  | token (id : TokenId) (user : UserId)
  deriving DecidableEq

inductive Credential
  | session (hash : String) (user : UserId)
  | token (hash : String) (id : TokenId) (user : UserId)
  deriving DecidableEq

structure Seat where
  kind : SeatKind
  told : Bool
  admitted : Option Credential
  deriving DecidableEq

inductive Closing
  | token (id : TokenId)
  | userTokens (user : UserId)
  | allTokens
  | session (hash : String)
  /-- `user`'s sign-ins, apart from `except`: the screen that changed the password. -/
  | userSessions (user : UserId) (except : Option String)
  | openAndSessions
  deriving DecidableEq

def Closing.matches_ : Closing → SeatKind → Bool
  | .token id, .token other _ => other = id
  | .userTokens user, .token _ owner => owner = user
  | .allTokens, .token _ _ => true
  | .session hash, .session other _ => other = hash
  | .userSessions user except, .session hash owner => owner = user && except ≠ some hash
  | .openAndSessions, .open_ => true
  | .openAndSessions, .session _ _ => true
  | _, _ => false

def closeSeats (which : Closing) (seats : List Seat) : List Seat :=
  seats.map fun seat => if which.matches_ seat.kind then { seat with told := true } else seat

/-- Who commands are attributed to in a home where nobody has been set up. -/
def unauthenticated : UserId := ⟨"unauthenticated", by decide⟩

/-- What a request for a socket carries: the secret of a bearer token, and the token of a cookie.
`extension` is an extension dialling in. -/
structure Visit where
  extension : Bool
  bearer : Option String
  cookie : Option String
  deriving DecidableEq

/-- Who a request is from: what let it in, who it is attributed to, and the token it presented. -/
structure Guest where
  admitted : Option Credential
  user : UserId
  token : Option TokenId
  deriving DecidableEq

inductive Opening
  | asked (visit : Visit)
  /-- The guard has looked up the people. -/
  | checking (visit : Visit) (people : People)
  | guarded (visit : Visit) (who : Guest)
  /-- Whether the home asks who is there was looked up once more. -/
  | deciding (visit : Visit) (who : Guest) (locked : Bool)
  | seating (kind : SeatKind) (admitted : Option Credential)
  deriving DecidableEq

def scopeLive : List ApiScope := [.registryRead, .statesRead, .eventsRead]

/-- Whether this token still stands for someone, and who that is. An open home honours it either
way. -/
def tokenActor (people : People) (hash : String) (token : AccessToken) : Option Guest :=
  let user := people.user token.user
  if people.locked &&
      (!people.hashes.contains token.user || !user.any fun user => user.role.runsTheHome) then none
  else
    some ⟨some (.token hash token.id token.user), (user.map User.id).getD unauthenticated,
      some token.id⟩

inductive Sessions
  | one (hash : String)
  | person (user : UserId) (kept : Option String)
  | all
  deriving DecidableEq

def Sessions.keeps (hash : String) (session : Session) : Sessions → Bool
  | .one other => hash ≠ other
  | .person user kept => session.user ≠ user || kept = some hash
  | .all => false

inductive Tokens
  | one (hash : String)
  | person (user : UserId)
  | all
  deriving DecidableEq

def Tokens.keeps (hash : String) (token : AccessToken) : Tokens → Bool
  | .one other => hash ≠ other
  | .person user => token.user ≠ user
  | .all => false

inductive PeopleWrite
  | edit (call : EditCall) (hash : Option String)
  | removal (id : UserId)
  | owner (name hash : String) (fresh : UserId)
  deriving DecidableEq

inductive Act
  | dropTokens (which : Tokens)
  | write (write : PeopleWrite)
  | forget (which : Sessions)
  | close (which : Closing)
  /-- Whoever just set a password is signed in. `none` is the owner there is. -/
  | begin_ (user : Option UserId)
  deriving DecidableEq

def Act.about (owner : Option UserId) : Act → Act
  | .begin_ none => .begin_ owner
  | act => act

/-- What is asked. `rooms` is whether a change of a person asks for rooms too. -/
inductive Ousting
  | signOut (cookie : Option String)
  | editUser (call : EditCall) (rooms : Bool)
  | removeUser (id : UserId)
  | revoke (id : TokenId)
  | setUp (name password : String)
  deriving DecidableEq

inductive Work
  | asked (ask : Ousting)
  | hashing (call : EditCall) (rooms : Bool)
  | refusing (call : EditCall) (rooms : Bool) (hash : Option String) (locks : Bool)
  | acting (acts : List Act) (gone : List Credential)
  deriving DecidableEq

/-- What requests share, and how far each is. The rest only notes what happened: the fingerprints of
all tokens there were, what was ended and answered for, and what was ended by a request that closed
seats since. -/
structure Hall where
  people : People
  sessions : Map String Session
  tokens : Map String AccessToken
  now : Nat
  seats : List Seat
  openings : Map Nat Opening
  works : Map Nat Work
  issued : List String
  answered : List Credential
  closed : List Credential

namespace Hall

def start (people : People) (sessions : Map String Session) (tokens : Map String AccessToken)
    (now : Nat) : Hall where
  people := people
  sessions := sessions
  tokens := tokens
  now := now
  seats := []
  openings := ∅
  works := ∅
  issued := tokens.keys
  answered := []
  closed := []

variable (x : Crypto) (s : Hall) (n : Nat)

/-- Whose session a cookie is, if it is anybody's still. -/
def whose (token : String) : Option UserId :=
  match s.sessions[x.fingerprint token]? with
  | none => none
  | some session => if s.now < session.expires then some session.user else none

def find (secret : String) : Option AccessToken := s.tokens[x.fingerprint secret]?

def guard (visit : Visit) (people : People) : Option Guest :=
  match visit.bearer with
  | some secret =>
    match s.find x secret with
    | none => none
    | some token =>
      if token.extension.isSome = visit.extension &&
          (visit.extension || scopeLive.all (token.scopes.contains ·)) then
        tokenActor people (x.fingerprint secret) token
      else none
  | none =>
    if visit.extension then none
    else if !people.locked then
      some ⟨none, ((people.users.find? fun user => user.role.runsTheHome).map User.id).getD
        unauthenticated, none⟩
    else
      match visit.cookie with
      | none => none
      | some cookie =>
        match s.whose x cookie with
        | none => none
        | some id =>
          if people.hashes.contains id && (people.user id).isSome then
            some ⟨some (.session (x.fingerprint cookie) id), id, none⟩
          else none

def opening (stage : Opening) : Hall := { s with openings := s.openings.insert n stage }

def opened : Hall := { s with openings := s.openings.erase n }

def seatKind (visit : Visit) (who : Guest) (locked : Bool) : SeatKind :=
  match visit.cookie with
  | some cookie =>
    if locked && (s.whose x cookie).isSome then .session (x.fingerprint cookie) who.user
    else .open_
  | none => .open_

def goOpening : Opening → Hall
  | .asked visit => s.opening n (.checking visit s.people)
  | .checking visit people =>
    match s.guard x visit people with
    | some who => s.opening n (.guarded visit who)
    | none => s.opened n
  | .guarded visit who =>
    match who.token with
    | some id => s.opening n (.seating (.token id who.user) who.admitted)
    | none => s.opening n (.deciding visit who s.people.locked)
  | .deciding visit who locked =>
    s.opening n (.seating (s.seatKind x visit who locked) who.admitted)
  | .seating kind admitted =>
    { s.opened n with seats := s.seats ++ [⟨kind, false, admitted⟩] }

def working (work : Work) : Hall := { s with works := s.works.insert n work }

def answer (gone : List Credential) : Hall :=
  { s with works := s.works.erase n, answered := gone ++ s.answered }

def goneSessions (which : Sessions) : List Credential :=
  (s.sessions.toList.filter fun entry => !which.keeps entry.1 entry.2).map fun entry =>
    .session entry.1 entry.2.user

def goneTokens (which : Tokens) : List Credential :=
  (s.tokens.toList.filter fun entry => !which.keeps entry.1 entry.2).map fun entry =>
    .token entry.1 entry.2.id entry.2.user

def written : PeopleWrite → Except String (People × Option UserId)
  | .edit call hash => (s.people.edit (call.change x hash)).map fun made => (made.1, some call.id)
  | .removal id => (s.people.edit (removed id)).map fun made => (made.1, none)
  | .owner name hash fresh =>
    (s.people.edit (ownerOf name hash fresh)).map fun made => (made.1, some made.2)

def act (luck : Luck) (rest : List Act) (gone : List Credential) : Act → Hall
  | .dropTokens which =>
    if luck.works || (s.goneTokens which).isEmpty then
      { s.working n (.acting rest (s.goneTokens which ++ gone)) with
        tokens := s.tokens.filter fun hash token => which.keeps hash token }
    else s.answer n gone
  | .write write =>
    match s.written x write, luck.works with
    | .ok (people, about), true =>
      { s.working n (.acting (rest.map (Act.about about)) gone) with people }
    | _, _ => s.answer n gone
  | .forget which =>
    { s.working n (.acting rest (s.goneSessions which ++ gone)) with
      sessions := s.sessions.filter fun hash session => which.keeps hash session }
  | .close which =>
    { s.working n (.acting rest gone) with
      seats := closeSeats which s.seats
      closed := gone ++ s.closed }
  | .begin_ (some user) =>
    { s.working n (.acting rest gone) with
      sessions := s.sessions.insert (x.fingerprint luck.drawn) ⟨user, s.now + sessionLife⟩ }
  | .begin_ none => s.working n (.acting rest gone)

/-- What a change of a person does, once nothing refuses it. -/
def editActs (call : EditCall) (rooms : Bool) (hash : Option String) (locks : Bool) : List Act :=
  (if call.demotes s.people then
    [.dropTokens (.person call.id), .close (.userTokens call.id)] else []) ++
  [.write (.edit call hash)] ++
  (if rooms || call.edit.role.isSome then [.close (.userSessions call.id none)] else []) ++
  (if hash.isSome then
    [.forget (.person call.id (call.cookie.map x.fingerprint)),
      .close (.userSessions call.id (call.cookie.map x.fingerprint))] else []) ++
  (if locks then [.begin_ (some call.id)] else [])

def removalActs (id : UserId) : List Act :=
  [.dropTokens (.person id), .close (.userTokens id), .write (.removal id),
    .forget (.person id none), .close (.userSessions id none)]

def ownerActs (name hash : String) (fresh : UserId) : List Act :=
  [.dropTokens .all, .close .allTokens, .write (.owner name hash fresh), .forget .all,
    .close .openAndSessions, .begin_ none]

def tokenWith (id : TokenId) : Option String :=
  (s.tokens.toList.find? fun entry => entry.2.id = id).map Prod.fst

def goAsked (luck : Luck) : Ousting → Hall
  | .signOut none => s.answer n []
  | .signOut (some token) =>
    s.working n (.acting [.forget (.one (x.fingerprint token)),
      .close (.session (x.fingerprint token))] [])
  | .editUser call rooms =>
    if call.allowed && call.proven x s.people luck.works then
      s.working n (.hashing call rooms)
    else s.answer n []
  | .removeUser id =>
    if (s.people.canLeave id).isOk then s.working n (.acting (removalActs id) [])
    else s.answer n []
  | .revoke id =>
    match s.tokenWith id with
    | some hash => s.working n (.acting [.dropTokens (.one hash), .close (.token id)] [])
    | none => s.answer n []
  | .setUp name password =>
    if !s.people.owned && (checkPassword password).isOk && luck.works then
      match userIdFrom name with
      | some fresh =>
        s.working n (.acting (ownerActs name (x.hash password luck.drawn) fresh) [])
      | none => s.answer n []
    else s.answer n []

def goWork (luck : Luck) : Work → Hall
  | .asked ask => s.goAsked x n luck ask
  | .hashing call rooms =>
    match call.fresh with
    | none => s.working n (.refusing call rooms none false)
    | some password =>
      if (checkPassword password).isOk && luck.works then
        s.working n (.refusing call rooms (some (x.hash password luck.drawn)) !s.people.locked)
      else s.answer n []
  | .refusing call rooms hash locks =>
    if call.passes x s.people true then
      s.working n (.acting (s.editActs x call rooms hash locks) [])
    else s.answer n []
  | .acting (act :: rest) gone => s.act x n luck rest gone act
  | .acting [] gone => s.answer n gone

end Hall

inductive HallEvent
  | visit (n : Nat) (visit : Visit)
  | goOpening (n : Nat)
  | ask (n : Nat) (ask : Ousting)
  | goWork (n : Nat) (luck : Luck)
  | leave (seat : Nat)
  | begin_ (user : UserId) (drawn : String)
  | issue (secret : String) (token : AccessToken)
  | clock (now : Nat)
  | expire
  deriving DecidableEq

namespace Hall

variable (x : Crypto) (s : Hall)

/-- The server after something happened. A secret that was drawn is not drawn again. -/
def after : HallEvent → Hall
  | .visit n visit =>
    if s.openings.contains n then s else s.opening n (.asked visit)
  | .goOpening n =>
    match s.openings[n]? with
    | some stage => s.goOpening x n stage
    | none => s
  | .ask n ask => if s.works.contains n then s else s.working n (.asked ask)
  | .goWork n luck =>
    match s.works[n]? with
    | some work => s.goWork x n luck work
    | none => s
  | .leave i => { s with seats := s.seats.eraseIdx i }
  | .begin_ user drawn =>
    { s with
      sessions := s.sessions.insert (x.fingerprint drawn) ⟨user, s.now + sessionLife⟩ }
  | .issue secret token =>
    if s.issued.contains (x.fingerprint secret) then s
    else
      { s with
        tokens := s.tokens.insert (x.fingerprint secret) token
        issued := x.fingerprint secret :: s.issued }
  | .clock now => { s with now := now }
  | .expire => { s with sessions := s.sessions.filter fun _ session => s.now < session.expires }

def afterAll (events : List HallEvent) : Hall := events.foldl (fun s event => s.after x event) s

end Hall

end Irori.Server

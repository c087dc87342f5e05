import Irori.Home.Ids

/-!
# Access tokens

Tokens for programs that aren't the page. A token's secret is handed out once and kept nowhere: the
table and the copy of it in memory know its fingerprint alone.
-/

namespace Irori.Server

inductive ApiScope
  | registryRead | statesRead | eventsRead | servicesCall | historyRead
  deriving DecidableEq

structure AccessToken where
  id : TokenId
  name : String
  user : UserId
  scopes : List ApiScope
  extension : Option ExtensionId
  created : Nat
  deriving DecidableEq

structure TokenRow where
  id : String
  name : String
  user : String
  scopes : String
  extension : Option String
  created : Int

/-- The fingerprint of a secret, and the text a list of scopes is stored as. -/
structure TokenText where
  fingerprint : String → String
  writeScopes : List ApiScope → String
  readScopes : String → Option (List ApiScope)
  read_write : ∀ scopes, readScopes (writeScopes scopes) = some scopes

inductive IssueError
  | full
  | taken
  | store (message : String)
  deriving DecidableEq

def maxTokens : Nat := 32

def maxSeconds : Nat := 2 ^ 63 - 1

structure TokenStore where
  rows : Map String TokenRow
  tokens : Map String AccessToken

namespace TokenStore

variable (text : TokenText) (store : TokenStore)

def empty : TokenStore := ⟨∅, ∅⟩

def readExtension : Option String → Option (Option ExtensionId)
  | some id => (Slug.parse "extension id" id).toOption.map some
  | none => some none

def readCreated (created : Int) : Option Nat :=
  if 0 ≤ created then some created.toNat else none

def readRow (row : TokenRow) : Option AccessToken := do
  let scopes ← text.readScopes row.scopes
  let extension ← readExtension row.extension
  let id ← (Slug.parse "token id" row.id).toOption
  let user ← (Slug.parse "user id" row.user).toOption
  let created ← readCreated row.created
  some ⟨id, row.name, user, scopes, extension, created⟩

def writeRow (token : AccessToken) : TokenRow where
  id := token.id.text
  name := token.name
  user := token.user.text
  scopes := text.writeScopes token.scopes
  extension := token.extension.map Slug.text
  created := min token.created maxSeconds

def open_ (reads : Bool) : TokenStore :=
  { store with
    tokens := if reads then store.rows.filterMap fun _ row => readRow text row else ∅ }

/-- A row stored, or what the database says: `fails` is its own trouble. -/
def insertRow (hash : String) (row : TokenRow) (fails : Option String) : Except String TokenStore :=
  match fails with
  | some message => .error message
  | none =>
    if store.rows.contains hash then .error "UNIQUE constraint failed: tokens.token_hash"
    else if store.rows.toList.any fun entry => entry.2.id == row.id then
      .error "UNIQUE constraint failed: tokens.id"
    else .ok { store with rows := store.rows.insert hash row }

def mentions (part text : String) : Bool :=
  text.toList.tails.any fun rest => part.toList.isPrefixOf rest

structure Issued where
  secret : String
  token : AccessToken

/-- Creates a token and answers its secret, once. The database is written before the secret is
remembered here, so a secret that couldn't be kept is never handed out. -/
def issue (id : TokenId) (name : String) (user : UserId) (scopes : List ApiScope)
    (extension : Option ExtensionId) (secret : String) (now : Fin (maxSeconds + 1))
    (fails : Option String) : TokenStore × Except IssueError Issued :=
  if maxTokens ≤ store.tokens.size then (store, .error .full)
  else if store.tokens.vals.any fun token => token.id = id then (store, .error .taken)
  else
    let hash := text.fingerprint secret
    let token : AccessToken := ⟨id, name, user, scopes, extension, now⟩
    match store.insertRow hash (writeRow text token) fails with
    | .error message =>
      if mentions "UNIQUE" message then (store, .error .taken)
      else (store, .error (.store message))
    | .ok stored =>
      ({ stored with tokens := stored.tokens.insert hash token }, .ok ⟨secret, token⟩)

def find (secret : String) : Option AccessToken := store.tokens[text.fingerprint secret]?

/-- Forgets the tokens that aren't to be kept: in one transaction, and then here. -/
def dropTokens (keep : String → AccessToken → Bool) (fails : Option String) :
    TokenStore × Except String Unit :=
  let gone := (store.tokens.toList.filter fun entry => !keep entry.1 entry.2).map Prod.fst
  if gone.isEmpty then (store, .ok ())
  else
    match fails with
    | some message => (store, .error message)
    | none =>
      (⟨store.rows.filter fun hash _ => !gone.contains hash,
        store.tokens.filter fun hash _ => !gone.contains hash⟩, .ok ())

def revoke (id : TokenId) (fails : Option String) : TokenStore × Except String Bool :=
  match store.tokens.toList.find? fun entry => entry.2.id = id with
  | none => (store, .ok false)
  | some (hash, _) =>
    match store.dropTokens (fun other _ => other != hash) fails with
    | (store, .ok ()) => (store, .ok true)
    | (store, .error message) => (store, .error message)

def revokeUser (user : UserId) (fails : Option String) : TokenStore × Except String Unit :=
  store.dropTokens (fun _ token => token.user ≠ user) fails

def revokeAll (fails : Option String) : TokenStore × Except String Unit :=
  store.dropTokens (fun _ _ => false) fails

end TokenStore

inductive TokenStep
  | issue (id : TokenId) (name : String) (user : UserId) (scopes : List ApiScope)
      (extension : Option ExtensionId) (secret : String) (now : Fin (maxSeconds + 1))
      (fails : Option String)
  | revoke (id : TokenId) (fails : Option String)
  | revokeUser (user : UserId) (fails : Option String)
  | revokeAll (fails : Option String)
  | find (secret : String)
  | restart (reads : Bool)

inductive TokenAnswer
  | issued (answer : Except IssueError TokenStore.Issued)
  | revoked (answer : Except String Unit)
  | found (token : Option AccessToken)
  | opened

def TokenStore.after (text : TokenText) (store : TokenStore) : TokenStep → TokenStore × TokenAnswer
  | .issue id name user scopes extension secret now fails =>
    let (store, answer) := store.issue text id name user scopes extension secret now fails
    (store, .issued answer)
  | .revoke id fails =>
    let (store, answer) := store.revoke id fails
    (store, .revoked (answer.map fun _ => ()))
  | .revokeUser user fails =>
    let (store, answer) := store.revokeUser user fails
    (store, .revoked answer)
  | .revokeAll fails =>
    let (store, answer) := store.revokeAll fails
    (store, .revoked answer)
  | .find secret => (store, .found (store.find text secret))
  | .restart reads => (store.open_ text reads, .opened)

def TokenStore.afterAll (text : TokenText) (steps : List TokenStep) : TokenStore :=
  steps.foldl (fun store step => (store.after text step).1) .empty

end Irori.Server

import Irori.Home.Seen

/-!
# Chats

What is remembered of conversations with the assistant, and of what each person could reach. Chats
run side by side: each goes on by one look at what is remembered, or one change of it. How much of
the model's context an answer took is left out.
-/

namespace Irori.Assistant
open Irori.Core (Reach)

inductive Role
  | user
  | assistant
  deriving DecidableEq

structure Turn where
  role : Role
  body : String
  deriving DecidableEq

def limitMessages : Nat := 40
def limitBytes : Nat := 64 * 1024
def limitGlobalBytes : Nat := 2 * 1024 * 1024

def cutTo (bytes : Nat) : List Char → List Char
  | [] => []
  | c :: rest => if c.utf8Size ≤ bytes then c :: cutTo (bytes - c.utf8Size) rest else []

def Turn.cut (turn : Turn) : Turn :=
  if turn.body.utf8ByteSize > limitBytes then
    { turn with body := String.ofList (cutTo limitBytes turn.body.toList) }
  else turn

def byteLen (turns : List Turn) : Nat := (turns.map fun turn => turn.body.utf8ByteSize).sum

def withinLimits : List Turn → List Turn
  | [] => []
  | turn :: rest =>
    if (turn :: rest).length > limitMessages || byteLen (turn :: rest) > limitBytes then
      withinLimits rest
    else turn :: rest

def appendCapped (turns : List Turn) (turn : Turn) : List Turn := withinLimits (turns ++ [turn.cut])

/-- A row of what was said. `answeredFrom` is no column of it: it only notes what the person had of
the home in the prompt that was answered. -/
structure Message where
  scope : String
  seq : Nat
  role : Role
  body : String
  createdAt : Nat
  answeredFrom : Reach
  deriving DecidableEq

def Message.turn (message : Message) : Turn := ⟨message.role, message.body⟩

structure Memory where
  messages : List Message
  noted : Map UserId String

/-- Where the conversation `scope` of somebody who is not an owner is kept. -/
def rememberedIn (scope : String) (user : UserId) : String := scope ++ "#" ++ user.text

namespace Memory

variable (memory : Memory)

def forgetConversationsOf (user : UserId) : Memory where
  messages := memory.messages.filter fun message =>
    !("#" ++ user.text).toList.isSuffixOf message.scope.toList
  noted := memory.noted.erase user

def lines (text : String) : List String := (text.toList.splitOn '\n').map String.ofList

def joined (marks : List String) : String :=
  String.ofList (['\n'].intercalate (marks.map String.toList))

def inOrder (set : Finset String) : List String :=
  Quot.liftOn set.val (fun marks => marks.insertionSort (· ≤ ·)) fun a b hperm => by
    have hsorted : ∀ marks : List String, (marks.insertionSort (· ≤ ·)).Pairwise (· ≤ ·) :=
      List.pairwise_insertionSort (· ≤ ·)
    refine List.Perm.eq_of_pairwise (fun x y _ _ hxy hyx => le_antisymm hxy hyx) (hsorted a)
      (hsorted b) ?_
    exact ((List.perm_insertionSort _ a).trans hperm).trans (List.perm_insertionSort _ b).symm

def current (reach : Reach) : String :=
  match reach.marks with
  | none => "*"
  | some marks => joined (inOrder marks)

def lost (before : Option String) (now : Option (Finset String)) : Bool :=
  match before, now with
  -- Nothing is known of what they could reach, so nothing can be said to be theirs still.
  | none, _ => true
  | some _, none => false
  | some before, some now =>
    before == "*" || (lines before).any fun mark => !mark.isEmpty && decide (mark ∉ now)

/-- Keeps a person's chats only while everything they were told in them is still theirs. -/
def keepToReach (user : UserId) (reach : Reach) : Bool × Memory :=
  let before := memory.noted[user]?
  if before = some (current reach) then (false, memory)
  else
    let lost := lost before reach.marks
    let kept := if lost then memory.forgetConversationsOf user else memory
    (lost, { kept with noted := kept.noted.insert user (current reach) })

def loadTurns (scope : String) : List Message :=
  (memory.messages.filter fun message => message.scope == scope).insertionSort
    fun a b => a.seq ≤ b.seq

def lengthOf (messages : List Message) (scope : String) : Nat :=
  ((messages.filter fun message => message.scope == scope).map fun message =>
    message.body.length).sum

def longest (messages : List Message) : Option String :=
  (messages.map Message.scope).foldl (fun best scope =>
    match best with
    | none => some scope
    | some best =>
      if lengthOf messages best < lengthOf messages scope ∨
          (lengthOf messages best = lengthOf messages scope ∧ scope < best) then some scope
      else some best) none

def oldest (messages : List Message) (scope : String) : Option Message :=
  (messages.filter fun message => message.scope == scope).foldl (fun best message =>
    match best with
    | none => some message
    | some best =>
      if message.createdAt < best.createdAt ∨
          (message.createdAt = best.createdAt ∧ message.seq < best.seq) then some message
      else some best) none

/-- From the conversation that holds the most, so that one long chat is cut before it pushes out
anybody else's. Each turn of the loop takes one message. -/
def trimGlobal : Nat → List Message → List Message
  | 0, messages => messages
  | fuel + 1, messages =>
    if (messages.map fun message => message.body.length).sum ≤ limitGlobalBytes then messages
    else
      match (longest messages).bind (oldest messages) with
      | some message => trimGlobal fuel (messages.erase message)
      | none => messages

/-- Adds one exchange to a conversation and drops what no longer fits. -/
def storeTurns (scope : String) (said : List Turn) (answeredFrom : Reach) (now : Nat) : Memory :=
  let rows := memory.loadTurns scope
  let had := rows.length
  let next :=
    match rows.getLast? with
    | some row => row.seq + 1
    | none => 0
  let turns := said.foldl appendCapped (rows.map Message.turn)
  -- Only the front is dropped, so what is left is the tail of old and new.
  let dropped := had + said.length - turns.length
  let kept :=
    match rows[dropped]? with
    | some first => memory.messages.filter fun message =>
        !(message.scope == scope && decide (message.seq < first.seq))
    | none => memory.messages.filter fun message => message.scope != scope
  let added := (turns.drop (had - dropped)).zipIdx.map fun (turn, n) =>
    ({ scope, seq := next + n, role := turn.role, body := turn.body, createdAt := now,
       answeredFrom } : Message)
  { memory with messages := trimGlobal (kept ++ added).length (kept ++ added) }

def clear (key : String) : Memory :=
  { memory with messages := memory.messages.filter fun message => message.scope != key }

end Memory

inductive ChatPhase
  /-- Its prompt is built. -/
  | asked
  /-- It has kept the person's chats to what it began with. -/
  | kept
  /-- It has read what was said before. -/
  | loaded (turns : List Message)
  /-- It has its answer, and has kept the person's chats to what they have by now. -/
  | confirmed
  | over

/-- A question of somebody who is not an owner. A look at a conversation is one that goes no further
than its being read. -/
structure Chat where
  user : UserId
  scope : String
  /-- What they had of the home when they asked. The prompt and the tools are drawn from it. -/
  reach : Reach
  phase : ChatPhase

structure Chatting where
  memory : Memory
  /-- What each person has of the home. -/
  has : UserId → Reach
  chats : Map Nat Chat
  nextChat : Nat

inductive ChatStep
  | changes (user : UserId) (reach : Reach)
  | forgets (user : UserId)
  | clears (key : String)
  | asks (user : UserId) (scope : String)
  | keeps (k : Nat)
  | loads (k : Nat)
  | confirms (k : Nat)
  | stores (k : Nat) (said : List Turn) (now : Nat)
  | ends (k : Nat)

namespace Chatting

def start : Chatting where
  memory := ⟨[], ∅⟩
  has _ := .nothing
  chats := ∅
  nextChat := 0

variable (s : Chatting)

def withPhase (k : Nat) (chat : Chat) (phase : ChatPhase) : Chatting :=
  { s with chats := s.chats.insert k { chat with phase } }

def after : ChatStep → Chatting
  | .changes user reach => { s with has := Function.update s.has user reach }
  | .forgets user => { s with memory := s.memory.forgetConversationsOf user }
  | .clears key => { s with memory := s.memory.clear key }
  | .asks user scope =>
    { s with
      chats := s.chats.insert s.nextChat ⟨user, scope, s.has user, .asked⟩
      nextChat := s.nextChat + 1 }
  | .keeps k =>
    match s.chats[k]? with
    | some ⟨user, scope, reach, .asked⟩ =>
      { s with memory := (s.memory.keepToReach user reach).2 }.withPhase k
        ⟨user, scope, reach, .asked⟩ .kept
    | _ => s
  | .loads k =>
    match s.chats[k]? with
    | some ⟨user, scope, reach, .kept⟩ =>
      s.withPhase k ⟨user, scope, reach, .kept⟩
        (.loaded (s.memory.loadTurns (rememberedIn scope user)))
    | _ => s
  | .confirms k =>
    match s.chats[k]? with
    | some ⟨user, scope, reach, .loaded turns⟩ =>
      let (lost, memory) := s.memory.keepToReach user (s.has user)
      { s with memory }.withPhase k ⟨user, scope, reach, .loaded turns⟩
        (if lost then .over else .confirmed)
    | _ => s
  | .stores k said now =>
    match s.chats[k]? with
    | some ⟨user, scope, reach, .confirmed⟩ =>
      { s with memory := s.memory.storeTurns (rememberedIn scope user) said reach now }.withPhase k
        ⟨user, scope, reach, .confirmed⟩ .over
    | _ => s
  | .ends k =>
    match s.chats[k]? with
    | some chat => s.withPhase k chat .over
    | none => s

end Chatting

end Irori.Assistant

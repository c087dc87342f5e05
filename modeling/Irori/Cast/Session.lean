import Irori.Home.Ids
import Mathlib.Data.Rat.Defs

/-!
# A session with a Cast receiver

What a receiver last said, the messages that ask it for something, and the loop that reads, sends and
answers, from the cast extension's `map` and `session`. Messages stand for the JSON they are sent as,
statuses for what is read of theirs, and what is published but for its cause is left out. A write may
fail at any of an event's messages; a call goes by the number it was taken as.
-/

namespace Irori.Cast

def defaultMediaReceiver : String := "CC1AD845"

inductive PlayerState
  | playing
  | paused
  | buffering
  deriving DecidableEq

def PlayerState.parse : String → Option PlayerState
  | "PLAYING" => some playing
  | "PAUSED" => some paused
  | "BUFFERING" => some buffering
  | "LOADING" => some buffering
  | _ => none

structure Snap where
  appId : Option String
  sessionId : Option String
  transportId : Option String
  mediaSessionId : Option ℤ
  playerState : Option PlayerState
  deriving DecidableEq

def Snap.none : Snap := ⟨.none, .none, .none, .none, .none⟩

def Snap.clearMedia (snap : Snap) : Snap :=
  { snap with mediaSessionId := .none, playerState := .none }

structure CastApp where
  appId : Option String
  sessionId : Option String
  transportId : Option String

structure MediaEntry where
  mediaSessionId : Option ℤ
  playerState : Option String

/-- Folds a receiver status in. One without `applications` leaves the running app alone. -/
def applyReceiver (snap : Snap) (applications : Option (List CastApp)) : Snap :=
  match applications with
  | none => snap
  | some apps =>
    let app := apps.head?
    let appId := app.bind CastApp.appId
    let snap := if appId ≠ snap.appId then snap.clearMedia else snap
    let snap :=
      { snap with
        appId
        sessionId := app.bind CastApp.sessionId
        transportId := app.bind CastApp.transportId }
    if appId = none then snap.clearMedia else snap

/-- Folds a media status in; one with no entry says nothing is playing. -/
def applyMedia (snap : Snap) : Option MediaEntry → Snap
  | none => snap.clearMedia
  | some entry =>
    { snap with
      mediaSessionId := entry.mediaSessionId
      playerState := entry.playerState.bind PlayerState.parse }

structure LoadBody where
  contentId : String
  contentType : String
  title : Option String
  artist : Option String
  album : Option String
  imageUrl : Option String
  deriving DecidableEq

inductive Service
  | turnOn
  | turnOff
  | volumeSet (volume : ℕ)
  | volumeMute (mute : Bool)
  | play
  | pause
  | playPause
  | stop
  | seek (position : ℚ)
  | nextTrack
  | previousTrack
  | playMedia (media : LoadBody)
  | other

inductive Once
  | quit
  | volume (level : Option ℚ) (muted : Option Bool)
  | media (action : String) (position : Option ℚ)

inductive Command
  | once (once : Once)
  | turnOn (quit : Bool)
  | play (quit launch : Bool) (body : LoadBody)

inductive Outcome
  | ready
  | fail (message : String)
  | command (command : Command)

def isHttp (url : String) : Bool :=
  let url := (url.toList.dropWhile isWhitespace).map Char.toLower
  "https://".toList.isPrefixOf url || "http://".toList.isPrefixOf url

def mediaStep (snap : Snap) (action : String) (position : Option ℚ) : Outcome :=
  if snap.mediaSessionId = none ∨ snap.transportId = none then .fail "nothing is playing"
  else .command (.once (.media action position))

def turnOn (snap : Snap) : Outcome :=
  if snap.appId = some defaultMediaReceiver then .ready
  else .command (.turnOn snap.sessionId.isSome)

def play (snap : Snap) (media : LoadBody) : Outcome :=
  if !isHttp media.contentId then .fail "only an http or https address can be played"
  else
    let launch : Bool := snap.appId ≠ some defaultMediaReceiver
    .command (.play (launch && snap.sessionId.isSome) launch media)

def plan (service : Service) (snap : Snap) : Outcome :=
  match service with
  | .turnOn => turnOn snap
  | .turnOff => if snap.sessionId.isSome then .command (.once .quit) else .ready
  | .volumeSet volume => .command (.once (.volume (some (volume / 100)) none))
  | .volumeMute mute => .command (.once (.volume none (some mute)))
  | .play => mediaStep snap "PLAY" none
  | .pause => mediaStep snap "PAUSE" none
  | .playPause =>
    let action := if snap.playerState = some .playing then "PAUSE" else "PLAY"
    mediaStep snap action none
  | .stop => mediaStep snap "STOP" none
  | .seek position => mediaStep snap "SEEK" (some position)
  | .nextTrack => mediaStep snap "QUEUE_NEXT" none
  | .previousTrack => mediaStep snap "QUEUE_PREV" none
  | .playMedia media => play snap media
  | .other => .fail "this Cast device can't do that"

inductive TurnPhase
  | quit
  | waitQuit
  /-- LAUNCH the default receiver and answer. -/
  | launch

inductive PlayPhase
  | quit
  | waitQuit
  /-- LAUNCH, then wait until that app has a transport. -/
  | launch
  | waitLaunch
  /-- LOAD and answer. -/
  | load

inductive Flight
  | once (once : Once)
  | turnOn (phase : TurnPhase)
  | play (body : LoadBody) (phase : PlayPhase)

def Flight.start : Command → Flight
  | .once asked => .once asked
  | .turnOn true => .turnOn .quit
  | .turnOn false => .turnOn .launch
  | .play quit launch body => .play body (if quit then .quit else if launch then .launch else .load)

inductive Message
  | connect (destination : String)
  | status (destination : String) (requestId : ℕ)
  | ping
  | pong (destination : String)
  | launch (requestId : ℕ)
  | quit (session : String) (requestId : ℕ)
  | volume (level : Option ℚ) (muted : Option Bool) (requestId : ℕ)
  | load (transport : String) (body : LoadBody) (requestId : ℕ)
  | media (transport action : String) (session : ℤ) (position : Option ℚ) (requestId : ℕ)

def nextId (id : ℕ) : ℕ :=
  let id := (id + 1) % 2 ^ 64
  if id = 0 then 1 else id

abbrev Finished := Option (Except String Unit)

structure Advanced where
  flight : Flight
  messages : List Message
  finished : Finished
  requestId : ℕ

section Advance

variable (snap : Snap) (requestId : ℕ)

def onceMessage (once : Once) : Advanced :=
  match once with
  | .quit =>
    match snap.sessionId with
    | some session =>
      ⟨.once once, [.quit session (nextId requestId)], some (.ok ()), nextId requestId⟩
    | none => ⟨.once once, [], some (.ok ()), requestId⟩
  | .volume level muted =>
    ⟨.once once, [.volume level muted (nextId requestId)], some (.ok ()), nextId requestId⟩
  | .media action position =>
    match snap.transportId, snap.mediaSessionId with
    | some transport, some session =>
      ⟨.once once, [.media transport action session position (nextId requestId)], some (.ok ()),
        nextId requestId⟩
    | _, _ => ⟨.once once, [], some (.error "nothing is playing"), requestId⟩

def advanceTurnOn (phase : TurnPhase) : Advanced :=
  let launch : Advanced :=
    ⟨.turnOn .launch, [.launch (nextId requestId)], some (.ok ()), nextId requestId⟩
  match phase with
  | .quit =>
    match snap.sessionId with
    | none => launch
    | some session =>
      ⟨.turnOn .waitQuit, [.quit session (nextId requestId)], none, nextId requestId⟩
  | .waitQuit =>
    if snap.sessionId.isSome then ⟨.turnOn .waitQuit, [], none, requestId⟩ else launch
  | .launch => launch

def advancePlay (body : LoadBody) (phase : PlayPhase) : Advanced :=
  let launch : Advanced :=
    ⟨.play body .waitLaunch, [.launch (nextId requestId)], none, nextId requestId⟩
  let load : Advanced :=
    match snap.transportId with
    | none => ⟨.play body .load, [], none, requestId⟩
    | some transport =>
      ⟨.play body .load, [.load transport body (nextId requestId)], some (.ok ()),
        nextId requestId⟩
  match phase with
  | .quit =>
    match snap.sessionId with
    | none => launch
    | some session =>
      ⟨.play body .waitQuit, [.quit session (nextId requestId)], none, nextId requestId⟩
  | .waitQuit =>
    if snap.sessionId.isSome then ⟨.play body .waitQuit, [], none, requestId⟩ else launch
  | .launch => launch
  | .waitLaunch =>
    if snap.appId = some defaultMediaReceiver ∧ snap.transportId.isSome then load
    else ⟨.play body .waitLaunch, [], none, requestId⟩
  | .load => load

def advance : Flight → Advanced
  | .once once => onceMessage snap requestId once
  | .turnOn phase => advanceTurnOn snap requestId phase
  | .play body phase => advancePlay snap requestId body phase

end Advance

structure Pending where
  call : ℕ
  flight : Flight
  deadline : ℕ

structure Wire where
  snap : Snap
  connectedTransport : Option String
  pending : Option Pending
  cause : Option ℕ
  waitDeadline : Option ℕ
  requestId : ℕ

def Wire.start (requestId : ℕ) : Wire where
  snap := .none
  connectedTransport := none
  pending := none
  cause := none
  waitDeadline := none
  requestId := requestId

inductive Entry
  | took (call : ℕ) (command : Option Command)
  /-- A message was written, for a call, when the receiver had last said `snap`. -/
  | wrote (call : Option ℕ) (message : Message) (snap : Snap)
  | replied (call : ℕ) (result : Except String Unit)
  | published (cause : Option ℕ)

/-- What a device's task has done. It has a wire while it is connected. -/
structure World where
  wire : Option Wire
  stopped : Bool
  calls : ℕ
  trace : List Entry

def World.start : World := ⟨none, false, 0, []⟩

/-- A session at work: its wire, what has been done, and how many more writes go through. -/
structure Work where
  wire : Wire
  trace : List Entry
  writes : ℕ

namespace Work

def note (w : Work) (entry : Entry) : Work := { w with trace := w.trace ++ [entry] }

def send (w : Work) (call : Option ℕ) (message : Message) : Except Work Work :=
  if w.writes = 0 then .error w
  else .ok ({ w with writes := w.writes - 1 }.note (.wrote call message w.wire.snap))

def sendAll (w : Work) (call : Option ℕ) : List Message → Except Work Work
  | [] => .ok w
  | message :: messages => do
    let w ← w.send call message
    w.sendAll call messages

def followTransport (w : Work) : Except Work Work :=
  match w.wire.snap.transportId with
  | none => .ok { w with wire := { w.wire with connectedTransport := none } }
  | some transport =>
    if w.wire.connectedTransport = some transport then .ok w
    else do
      let w ← w.send none (.connect transport)
      let id := nextId w.wire.requestId
      let w ← { w with wire := { w.wire with requestId := id } }.send none (.status transport id)
      return { w with wire := { w.wire with connectedTransport := some transport } }

def publish (w : Work) (heard : Bool) : Except Work Work :=
  let cause := w.wire.cause
  let w := { w with wire := { w.wire with cause := none } }
  if heard then .ok (w.note (.published cause)) else .error w

def finish (w : Work) (call : ℕ) (result : Except String Unit) : Work :=
  let cause := if result.isOk then some call else w.wire.cause
  { w with wire := { w.wire with pending := none, waitDeadline := none, cause } }.note
    (.replied call result)

/-- Writes whatever the current step can send now. A finished command is replied to here. -/
def pump (w : Work) : Except Work Work :=
  match w.wire.pending with
  | none => .ok w
  | some pending => do
    let next := advance w.wire.snap w.wire.requestId pending.flight
    let wire :=
      { w.wire with
        pending := some { pending with flight := next.flight }
        requestId := next.requestId }
    let w ← { w with wire }.sendAll (some pending.call) next.messages
    return match next.finished with
      | none => w
      | some result => w.finish pending.call result

def dropPending (w : Work) : Work :=
  match w.wire.pending with
  | none => w
  | some pending =>
    { w with wire := { w.wire with pending := none } }.note
      (.replied pending.call (.error "the Cast device can't be reached"))

end Work

inductive Incoming
  | ping (source : String)
  | receiver (applications : Option (List CastApp))
  | media (entry : Option MediaEntry)
  | other

def handle (w : Work) (heard : Bool) : Incoming → Except Work Work
  | .ping source => w.send none (.pong source)
  | .receiver applications => do
    let w := { w with wire := { w.wire with snap := applyReceiver w.wire.snap applications } }
    let w ← w.followTransport
    let w ← w.pump
    w.publish heard
  | .media entry => do
    let w := { w with wire := { w.wire with snap := applyMedia w.wire.snap entry } }
    let w ← w.pump
    w.publish heard
  | .other => .ok w

def commandDeadline : ℕ := 8000

inductive Event
  /-- It connects, and `writes` of the first messages go through. -/
  | connects (writes : ℕ)
  /-- A frame comes, or the socket is closed. -/
  | frame (message : Option Incoming) (heard : Bool) (writes : ℕ)
  | heartbeat (writes : ℕ)
  | call (service : Service) (now writes : ℕ)
  | closed
  | deadline (now : ℕ)

namespace World

def went (w : World) : Except Work Work → World
  | .ok work => { w with wire := some work.wire, trace := work.trace }
  | .error work => { w with wire := none, trace := work.dropPending.trace }

def takeCall (w : World) (wire : Wire) (service : Service) (now writes : ℕ) : World :=
  let id := w.calls
  let w := { w with calls := w.calls + 1 }
  let answer (cause : Option ℕ) (result : Except String Unit) : World :=
    { w with
      wire := some { wire with cause }
      trace := w.trace ++ [.took id none, .replied id result] }
  if wire.pending.isSome then
    answer wire.cause (.error "the Cast device is busy with another command")
  else match plan service wire.snap with
    | .ready => answer (some id) (.ok ())
    | .fail message => answer wire.cause (.error message)
    | .command command =>
      let deadline := now + commandDeadline
      let pending : Pending := ⟨id, .start command, deadline⟩
      let wire := { wire with pending := some pending, waitDeadline := some deadline }
      w.went (Work.pump ⟨wire, w.trace ++ [.took id (some command)], writes⟩)

def step (w : World) (event : Event) : World :=
  if w.stopped then w
  else match w.wire, event with
    | none, .connects writes =>
      let id := nextId 0
      w.went do
        let work ← Work.send ⟨.start id, w.trace, writes⟩ none (.connect "receiver-0")
        work.send none (.status "receiver-0" id)
    | none, .call _ _ _ =>
      { w with
        calls := w.calls + 1
        trace := w.trace ++ [.took w.calls none,
          .replied w.calls (.error "the Cast device can't be reached")] }
    | none, .closed => { w with stopped := true }
    | some wire, .frame none _ writes => w.went (.error ⟨wire, w.trace, writes⟩)
    | some wire, .frame (some message) heard writes =>
      w.went (handle ⟨wire, w.trace, writes⟩ heard message)
    | some wire, .heartbeat writes => w.went (Work.send ⟨wire, w.trace, writes⟩ none .ping)
    | some wire, .call service now writes => w.takeCall wire service now writes
    | some wire, .closed => { w.went (.error ⟨wire, w.trace, 0⟩) with stopped := true }
    | some wire, .deadline now =>
      match wire.waitDeadline with
      | none => w
      | some deadline =>
        if now < deadline then w
        else
          let wire' := { wire with pending := none, waitDeadline := none }
          match wire.pending with
          | none => { w with wire := some wire' }
          | some pending =>
            { w with
              wire := some wire'
              trace := w.trace ++
                [.replied pending.call (.error "the Cast device didn't answer")] }
    | _, _ => w

def run (w : World) (events : List Event) : World := events.foldl step w

end World

end Irori.Cast

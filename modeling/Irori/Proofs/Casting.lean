import Irori.Cast.Session
import Mathlib.Tactic

/-!
# What a Cast command comes to

What is done about one call: it is taken, messages are written for it, it is answered. Where a
command is in its phases says which messages; every way a session goes on or ends keeps that.
-/

namespace Irori.Cast.Proofs

/-! ### One call -/

def concerns (call : ℕ) : Entry → Bool
  | .took call' _ => call' = call
  | .wrote call' _ _ => call' = some call
  | .replied call' _ => call' = call
  | .published _ => false

def about (call : ℕ) (trace : List Entry) : List Entry := trace.filter (concerns call)

abbrev Writes := List (Message × Snap)

def entries (call : ℕ) (writes : Writes) : List Entry :=
  writes.map fun (message, snap) => .wrote (some call) message snap

def Stopped (writes : Writes) : Prop := ∃ session id snap, writes = [(.quit session id, snap)]

/-- The receiver was launched, after the session was asked to stop where `quit` is: by then the
receiver had said it has none. -/
def Launched (quit : Bool) (writes : Writes) : Prop :=
  ∃ before id snap, writes = before ++ [(.launch id, snap)] ∧
    if quit then Stopped before ∧ snap.sessionId = none else before = []

/-- What is written before media is loaded. -/
def Opened (quit launch : Bool) (writes : Writes) : Prop :=
  if quit || launch then Launched quit writes else writes = []

/-- The media was loaded, in the app the receiver had last said is there. -/
def Loaded (quit launch : Bool) (body : LoadBody) (writes : Writes) : Prop :=
  ∃ before transport id snap, writes = before ++ [(.load transport body id, snap)] ∧
    snap.transportId = some transport ∧ Opened quit launch before

def Under : Command → Flight → Writes → Prop
  | .once asked, .once asked', writes => asked = asked' ∧ writes = []
  | .turnOn quit, .turnOn .quit, writes => quit = true ∧ writes = []
  | .turnOn quit, .turnOn .waitQuit, writes => quit = true ∧ Stopped writes
  | .turnOn quit, .turnOn .launch, writes => quit = false ∧ writes = []
  | .play quit launch body, .play body' phase, writes => body = body' ∧
    match phase with
    | .quit => quit = true ∧ writes = []
    | .waitQuit => quit = true ∧ Stopped writes
    | .launch => quit = false ∧ launch = true ∧ writes = []
    | .waitLaunch => (quit || launch) = true ∧ Launched quit writes
    | .load => Opened quit launch writes
  | _, _, _ => False

/-- A command that hasn't asked a session to stop yet, and is to. -/
def quits : Flight → Bool
  | .turnOn .quit => true
  | .play _ .quit => true
  | _ => false

def Done : Command → Writes → Prop
  | .once .quit, writes => writes = [] ∨ Stopped writes
  | .once (.volume level muted), writes => ∃ id snap, writes = [(.volume level muted id, snap)]
  | .once (.media action position), writes => ∃ transport session id snap,
    writes = [(.media transport action session position id, snap)]
  | .turnOn quit, writes => Launched quit writes
  | .play quit launch body, writes => Loaded quit launch body writes

lemma under_start (command : Command) : Under command (.start command) [] := by
  cases command with
  | once asked => exact ⟨rfl, rfl⟩
  | turnOn quit => cases quit <;> exact ⟨rfl, rfl⟩
  | play quit launch body =>
    cases quit <;> cases launch <;> simp [Flight.start, Under, Opened]

/-- At most one message is sent at a time, and what is written then is as it should be. -/
structure Advances (command : Command) (snap : Snap) (writes : Writes) (next : Advanced) :
    Prop where
  short : next.messages.length ≤ 1
  goesOn : next.finished = none → quits next.flight = false ∧
    Under command next.flight (writes ++ next.messages.map fun message => (message, snap))
  ends : next.finished = some (.ok ()) →
    Done command (writes ++ next.messages.map fun message => (message, snap))
  fails : ∀ e, next.finished = some (.error e) → next.messages = []

section Advance

variable {command : Command} {snap : Snap} {requestId : ℕ} {writes : Writes}

lemma onceMessage_advances (asked : Once) :
    Advances (.once asked) snap [] (onceMessage snap requestId asked) := by
  cases asked with
  | quit =>
    unfold onceMessage
    cases hsession : snap.sessionId with
    | none => exact ⟨by simp, nofun, fun _ => .inl rfl, nofun⟩
    | some session => exact ⟨by simp, nofun, fun _ => .inr ⟨_, _, _, rfl⟩, nofun⟩
  | volume level muted => exact ⟨by simp [onceMessage], nofun, fun _ => ⟨_, _, rfl⟩, nofun⟩
  | media action position =>
    unfold onceMessage
    dsimp only
    split
    · exact ⟨by simp, nofun, fun _ => ⟨_, _, _, _, rfl⟩, nofun⟩
    · exact ⟨by simp, nofun, nofun, fun _ _ => rfl⟩

lemma launched_first (id : ℕ) : Launched false [(.launch id, snap)] := ⟨[], id, snap, rfl, rfl⟩

lemma launched_after (h : Stopped writes) (hsnap : snap.sessionId = none) (id : ℕ) :
    Launched true (writes ++ [(.launch id, snap)]) := ⟨writes, id, snap, rfl, h, hsnap⟩

lemma advanceTurnOn_advances {quit : Bool} {phase : TurnPhase}
    (h : Under (.turnOn quit) (.turnOn phase) writes)
    (hquits : quits (.turnOn phase) = true → snap.sessionId.isSome) :
    Advances (.turnOn quit) snap writes (advanceTurnOn snap requestId phase) := by
  cases phase with
  | quit =>
    obtain ⟨rfl, rfl⟩ : quit = true ∧ writes = [] := h
    obtain ⟨session, hsession⟩ := Option.isSome_iff_exists.1 (hquits rfl)
    unfold advanceTurnOn
    dsimp only
    rw [hsession]
    exact ⟨by simp, fun _ => ⟨rfl, rfl, _, _, _, rfl⟩, nofun, nofun⟩
  | waitQuit =>
    obtain ⟨rfl, hstopped⟩ : quit = true ∧ Stopped writes := h
    unfold advanceTurnOn
    dsimp only
    split_ifs with hsession
    · exact ⟨by simp, fun _ => ⟨rfl, rfl, by simpa using hstopped⟩, nofun, nofun⟩
    · exact ⟨by simp, nofun, fun _ => launched_after hstopped (by simpa using hsession) _, nofun⟩
  | launch =>
    obtain ⟨rfl, rfl⟩ : quit = false ∧ writes = [] := h
    exact ⟨by simp [advanceTurnOn], nofun, fun _ => launched_first _, nofun⟩

lemma load_advances {quit launch : Bool} {body : LoadBody} (h : Opened quit launch writes) :
    Advances (.play quit launch body) snap writes
      (match snap.transportId with
        | none => ⟨.play body .load, [], none, requestId⟩
        | some transport =>
          ⟨.play body .load, [.load transport body (nextId requestId)], some (.ok ()),
            nextId requestId⟩) := by
  cases htransport : snap.transportId with
  | none => exact ⟨by simp, fun _ => ⟨rfl, rfl, by simpa using h⟩, nofun, nofun⟩
  | some transport =>
    exact ⟨by simp, nofun, fun _ => ⟨writes, transport, _, snap, rfl, htransport, h⟩, nofun⟩

lemma advancePlay_advances {quit launch : Bool} {body body' : LoadBody} {phase : PlayPhase}
    (h : Under (.play quit launch body) (.play body' phase) writes)
    (hquits : quits (.play body' phase) = true → snap.sessionId.isSome) :
    Advances (.play quit launch body) snap writes (advancePlay snap requestId body' phase) := by
  obtain ⟨rfl, hphase⟩ := h
  cases phase with
  | quit =>
    obtain ⟨rfl, rfl⟩ := hphase
    obtain ⟨session, hsession⟩ := Option.isSome_iff_exists.1 (hquits rfl)
    unfold advancePlay
    dsimp only
    rw [hsession]
    exact ⟨by simp, fun _ => ⟨rfl, rfl, rfl, _, _, _, rfl⟩, nofun, nofun⟩
  | waitQuit =>
    obtain ⟨rfl, hstopped⟩ := hphase
    unfold advancePlay
    dsimp only
    split_ifs with hsession
    · exact ⟨by simp, fun _ => ⟨rfl, rfl, rfl, by simpa using hstopped⟩, nofun, nofun⟩
    · have hsession : snap.sessionId = none := by simpa using hsession
      exact ⟨by simp, fun _ => ⟨rfl, rfl, rfl, launched_after hstopped hsession _⟩, nofun, nofun⟩
  | launch =>
    obtain ⟨rfl, rfl, rfl⟩ := hphase
    exact ⟨by simp [advancePlay], fun _ => ⟨rfl, rfl, rfl, launched_first _⟩, nofun, nofun⟩
  | waitLaunch =>
    obtain ⟨hopens, hlaunched⟩ := hphase
    unfold advancePlay
    dsimp only
    split_ifs
    · refine load_advances ?_
      unfold Opened
      rwa [if_pos hopens]
    · exact ⟨by simp, fun _ => ⟨rfl, rfl, hopens, by simpa using hlaunched⟩, nofun, nofun⟩
  | load => exact load_advances hphase

lemma advance_advances {flight : Flight} (h : Under command flight writes)
    (hquits : quits flight = true → snap.sessionId.isSome) :
    Advances command snap writes (advance snap requestId flight) := by
  cases command with
  | once asked =>
    cases flight with
    | once asked' =>
      obtain ⟨rfl, rfl⟩ : asked = asked' ∧ writes = [] := h
      exact onceMessage_advances asked
    | turnOn phase => exact h.elim
    | play body phase => exact h.elim
  | turnOn quit =>
    cases flight with
    | once asked' => exact h.elim
    | turnOn phase => exact advanceTurnOn_advances h hquits
    | play body phase => exact h.elim
  | play quit launch body =>
    cases flight with
    | once asked' => exact h.elim
    | turnOn phase => exact h.elim
    | play body' phase => exact advancePlay_advances h hquits

end Advance

/-! ### What holds between two events -/

/-- A call that is being carried out: taken, and as far along as `flight` says. -/
def Waiting (call : ℕ) (flight : Flight) (trace : List Entry) : Prop :=
  ∃ command writes, about call trace = .took call (some command) :: entries call writes ∧
    Under command flight writes

/-- A call that is over: taken, and answered after all that was written for it. An answer of success
comes once everything was. -/
def Settled (call : ℕ) (trace : List Entry) : Prop :=
  ∃ command writes result,
    about call trace = .took call command :: (entries call writes ++ [.replied call result]) ∧
    match command with
    | none => writes = []
    | some command => (result = .ok () → Done command writes) ∧
      (Done command writes ∨ ∃ flight, Under command flight writes)

/-- What a session keeps: every call taken is over but the one pending, which has a deadline. -/
structure Kept (calls : ℕ) (wire : Wire) (trace : List Entry) : Prop where
  fresh : ∀ call, calls ≤ call → about call trace = []
  settled : ∀ call < calls, (∀ p, wire.pending = some p → p.call ≠ call) → Settled call trace
  waiting : ∀ p, wire.pending = some p →
    p.call < calls ∧ Waiting p.call p.flight trace ∧ quits p.flight = false
  deadline : wire.waitDeadline = wire.pending.map Pending.deadline

structure Lost (calls : ℕ) (wire : Wire) (trace : List Entry) : Prop where
  fresh : ∀ call, calls ≤ call → about call trace = []
  settled : ∀ call < calls, (∀ p, wire.pending = some p → p.call ≠ call) → Settled call trace
  waiting : ∀ p, wire.pending = some p → p.call < calls ∧ ∃ flight, Waiting p.call flight trace

structure Rested (calls : ℕ) (trace : List Entry) : Prop where
  fresh : ∀ call, calls ≤ call → about call trace = []
  settled : ∀ call < calls, Settled call trace

variable {calls : ℕ} {wire : Wire} {trace : List Entry} {w : Work}

lemma Kept.lost (h : Kept calls wire trace) : Lost calls wire trace :=
  ⟨h.fresh, h.settled, fun p hp => ⟨(h.waiting p hp).1, p.flight, (h.waiting p hp).2.1⟩⟩

/-- A step of a session that keeps it so, or stops at a write that failed. -/
def Keeps (calls : ℕ) : Except Work Work → Prop
  | .ok w => Kept calls w.wire w.trace
  | .error w => Lost calls w.wire w.trace

lemma Keeps.bind {r : Except Work Work} {f : Work → Except Work Work} (h : Keeps calls r)
    (hf : ∀ w, Kept calls w.wire w.trace → Keeps calls (f w)) : Keeps calls (r >>= f) := by
  cases r with
  | error w => exact h
  | ok w => exact hf w h

lemma about_append (call : ℕ) (more : List Entry) :
    about call (trace ++ more) = about call trace ++ about call more := List.filter_append _ _

lemma about_note {call : ℕ} {entry : Entry} (h : concerns call entry = false) :
    about call (trace ++ [entry]) = about call trace := by
  rw [about_append]
  simp [about, h]

lemma Kept.note (h : Kept calls wire trace) {entry : Entry}
    (hentry : ∀ call, concerns call entry = false) : Kept calls wire (trace ++ [entry]) where
  fresh call hcall := by rw [about_note (hentry call), h.fresh call hcall]
  settled call hlt hother := by
    unfold Settled
    rw [about_note (hentry call)]
    exact h.settled call hlt hother
  waiting p hp := by
    unfold Waiting
    rw [about_note (hentry p.call)]
    exact h.waiting p hp
  deadline := h.deadline

lemma send_none (h : Kept calls w.wire w.trace) (message : Message) :
    Keeps calls (w.send none message) := by
  unfold Work.send
  split_ifs
  · exact h.lost
  · exact h.note fun call => rfl

lemma Kept.of_wire {wire' : Wire} (h : Kept calls wire trace)
    (hpending : wire'.pending = wire.pending)
    (hdeadline : wire'.waitDeadline = wire.waitDeadline) : Kept calls wire' trace where
  fresh := h.fresh
  settled := by
    rw [hpending]
    exact h.settled
  waiting := by
    rw [hpending]
    exact h.waiting
  deadline := by rw [hpending, hdeadline, h.deadline]

lemma followTransport_keeps (h : Kept calls w.wire w.trace) : Keeps calls w.followTransport := by
  unfold Work.followTransport
  split
  · exact h.of_wire rfl rfl
  · split_ifs
    · exact h
    · refine (send_none h _).bind fun w hw => ?_
      have hid : Kept calls { w.wire with requestId := nextId w.wire.requestId } w.trace :=
        hw.of_wire rfl rfl
      refine Keeps.bind (send_none (w := ⟨_, w.trace, w.writes⟩) hid _) fun w hw => ?_
      exact hw.of_wire rfl rfl

lemma publish_keeps (h : Kept calls w.wire w.trace) (heard : Bool) :
    Keeps calls (w.publish heard) := by
  have hcause : Kept calls { w.wire with cause := none } w.trace := h.of_wire rfl rfl
  unfold Work.publish
  dsimp only
  split_ifs
  · exact hcause.note fun call => rfl
  · exact hcause.lost

lemma about_replied_self (call : ℕ) (result : Except String Unit) :
    about call (trace ++ [.replied call result]) = about call trace ++ [.replied call result] := by
  rw [about_append]
  simp [about, concerns]

structure Others (calls call : ℕ) (trace : List Entry) : Prop where
  lt : call < calls
  fresh : ∀ other, calls ≤ other → about other trace = []
  settled : ∀ other < calls, call ≠ other → Settled other trace

lemma Lost.others {p : Pending} (h : Lost calls wire trace) (hp : wire.pending = some p) :
    Others calls p.call trace where
  lt := (h.waiting p hp).1
  fresh := h.fresh
  settled other hother hne := h.settled other hother fun p' hp' => by
    rw [hp] at hp'
    cases hp'
    exact hne

lemma Others.note {call : ℕ} (h : Others calls call trace) {entry : Entry}
    (hentry : ∀ other, call ≠ other → concerns other entry = false) :
    Others calls call (trace ++ [entry]) where
  lt := h.lt
  fresh other hother := by
    rw [about_note (hentry other (by have := h.lt; omega)), h.fresh other hother]
  settled other hother hne := by
    unfold Settled
    rw [about_note (hentry other hne)]
    exact h.settled other hother hne

lemma Others.answered {call : ℕ} (h : Others calls call trace) {command : Command}
    {writes : Writes} (result : Except String Unit)
    (habout : about call trace = .took call (some command) :: entries call writes)
    (hwrites : Done command writes ∨ ∃ flight, Under command flight writes)
    (hdone : result = .ok () → Done command writes) :
    Rested calls (trace ++ [.replied call result]) := by
  have hothers : Others calls call (trace ++ [.replied call result]) :=
    h.note fun other hne => by simp [concerns, hne]
  refine ⟨hothers.fresh, fun other hother => ?_⟩
  by_cases hcase : call = other
  · subst hcase
    refine ⟨some command, writes, result, ?_, hdone, hwrites⟩
    rw [about_replied_self, habout]
    rfl
  · exact hothers.settled other hother hcase

lemma Rested.kept (h : Rested calls trace) (hpending : wire.pending = none)
    (hdeadline : wire.waitDeadline = none) : Kept calls wire trace where
  fresh := h.fresh
  settled call hcall _ := h.settled call hcall
  waiting p hp := by
    rw [hpending] at hp
    cases hp
  deadline := by rw [hpending, hdeadline]; rfl

lemma about_wrote_self (call : ℕ) (message : Message) (snap : Snap) :
    about call (trace ++ [.wrote (some call) message snap]) =
      about call trace ++ [.wrote (some call) message snap] := by
  rw [about_append]
  simp [about, concerns]

lemma Others.pending {p : Pending} {command : Command} {writes : Writes} {wire : Wire}
    (h : Others calls p.call trace) (hp : wire.pending = some p)
    (hdeadline : wire.waitDeadline = some p.deadline)
    (habout : about p.call trace = .took p.call (some command) :: entries p.call writes)
    (hunder : quits p.flight = false ∧ Under command p.flight writes) :
    Kept calls wire trace where
  fresh := h.fresh
  settled other hother hne := h.settled other hother (hne p hp)
  waiting p' hp' := by
    rw [hp] at hp'
    cases hp'
    exact ⟨h.lt, ⟨command, writes, habout, hunder.2⟩, hunder.1⟩
  deadline := by rw [hp, hdeadline]; rfl

def concluded (w : Work) (call : ℕ) : Finished → Work
  | none => w
  | some result => w.finish call result

lemma Others.pumped {p : Pending} {command : Command} {writes : Writes} {finished : Finished}
    (h : Others calls p.call w.trace) (hp : w.wire.pending = some p)
    (hdeadline : w.wire.waitDeadline = some p.deadline)
    (habout : about p.call w.trace = .took p.call (some command) :: entries p.call writes)
    (hgoes : finished = none → quits p.flight = false ∧ Under command p.flight writes)
    (hends : finished = some (.ok ()) → Done command writes)
    (hfails : ∀ e, finished = some (.error e) → ∃ flight, Under command flight writes) :
    Keeps calls (.ok (concluded w p.call finished)) := by
  cases finished with
  | none => exact h.pending hp hdeadline habout (hgoes rfl)
  | some result =>
    have hwrites : Done command writes ∨ ∃ flight, Under command flight writes := by
      cases result with
      | error e => exact .inr (hfails e rfl)
      | ok _ => exact .inl (hends rfl)
    have hrested := h.answered result habout hwrites fun hok => hends (by rw [hok])
    exact hrested.kept rfl rfl

lemma pump_advances {p : Pending} {command : Command} {writes : Writes}
    (h : Others calls p.call w.trace) (hp : w.wire.pending = some p)
    (hdeadline : w.wire.waitDeadline = some p.deadline)
    (habout : about p.call w.trace = .took p.call (some command) :: entries p.call writes)
    (hunder : Under command p.flight writes)
    (hquits : quits p.flight = true → w.wire.snap.sessionId.isSome) : Keeps calls w.pump := by
  have hadvances : Advances command w.wire.snap writes
      (advance w.wire.snap w.wire.requestId p.flight) := advance_advances hunder hquits
  obtain ⟨hshort, hgoes, hends, hfails⟩ := hadvances
  unfold Work.pump
  rw [hp]
  dsimp only
  generalize hnext : advance w.wire.snap w.wire.requestId p.flight = next at *
  obtain ⟨flight, messages, finished, id⟩ := next
  let p' : Pending := { p with flight }
  let wire' : Wire := { w.wire with pending := some p', requestId := id }
  match messages, hshort with
  | [], _ =>
    simp only [List.map_nil, List.append_nil] at hgoes hends
    exact Others.pumped (p := p') (w := ⟨wire', w.trace, w.writes⟩) h rfl hdeadline habout hgoes
      hends fun _ _ => ⟨_, hunder⟩
  | [message], _ =>
    simp only [List.map_cons, List.map_nil] at hgoes hends
    unfold Work.sendAll Work.send
    dsimp only
    split_ifs with hwrites
    · refine ⟨h.fresh, fun call hcall hne => ?_, fun p'' hp'' => ?_⟩
      · exact h.settled call hcall (hne p' rfl)
      · cases hp''
        exact ⟨h.lt, p.flight, command, writes, habout, hunder⟩
    · let trace' := w.trace ++ [.wrote (some p.call) message w.wire.snap]
      have hothers : Others calls p.call trace' :=
        h.note fun other hne => by simp [concerns, hne]
      have habout' : about p.call trace' =
          .took p.call (some command) :: entries p.call (writes ++ [(message, w.wire.snap)]) := by
        rw [about_wrote_self, habout]
        simp [entries]
      exact Others.pumped (p := p') (w := ⟨wire', trace', w.writes - 1⟩) hothers rfl hdeadline
        habout' hgoes hends fun e he => absurd (hfails e he) (by simp)

lemma pump_keeps (h : Kept calls w.wire w.trace) : Keeps calls w.pump := by
  cases hp : w.wire.pending with
  | none =>
    unfold Work.pump
    rw [hp]
    exact h
  | some p =>
    obtain ⟨-, ⟨command, writes, habout, hunder⟩, hquits⟩ := h.waiting p hp
    have hdeadline : w.wire.waitDeadline = some p.deadline := by rw [h.deadline, hp]; rfl
    exact pump_advances (h.lost.others hp) hp hdeadline habout hunder (by simp [hquits])

lemma handle_keeps (h : Kept calls w.wire w.trace) (heard : Bool) (message : Incoming) :
    Keeps calls (handle w heard message) := by
  cases message with
  | ping source => exact send_none h _
  | receiver applications =>
    let snap := applyReceiver w.wire.snap applications
    have hsnap : Kept calls { w.wire with snap } w.trace := h.of_wire rfl rfl
    refine Keeps.bind (followTransport_keeps (w := ⟨_, w.trace, w.writes⟩) hsnap) fun w hw => ?_
    exact (pump_keeps hw).bind fun w hw => publish_keeps hw heard
  | media entry =>
    have hsnap : Kept calls { w.wire with snap := applyMedia w.wire.snap entry } w.trace :=
      h.of_wire rfl rfl
    exact (pump_keeps (w := ⟨_, w.trace, w.writes⟩) hsnap).bind fun w hw => publish_keeps hw heard
  | other => exact h

lemma dropPending_rested (h : Lost calls w.wire w.trace) : Rested calls w.dropPending.trace := by
  unfold Work.dropPending
  cases hp : w.wire.pending with
  | none =>
    exact ⟨h.fresh, fun call hcall => h.settled call hcall fun p hp' => by
      rw [hp] at hp'
      cases hp'⟩
  | some p =>
    obtain ⟨-, flight, command, writes, habout, hunder⟩ := h.waiting p hp
    exact (h.others hp).answered _ habout (.inr ⟨flight, hunder⟩) nofun

/-! ### The whole task -/

structure Holds (world : World) : Prop where
  connected : ∀ wire, world.wire = some wire → Kept world.calls wire world.trace
  offline : world.wire = none → Rested world.calls world.trace
  stopped : world.stopped = true → world.wire = none

lemma Kept.rested (h : Kept calls wire trace) (hpending : wire.pending = none) :
    Rested calls trace :=
  ⟨h.fresh, fun call hcall => h.settled call hcall fun p hp => by rw [hpending] at hp; cases hp⟩

lemma connected_holds {world : World} (hwire : world.wire = some wire)
    (h : Kept world.calls wire world.trace) (hstopped : world.stopped = false) : Holds world where
  connected wire' hwire' := by
    rw [hwire] at hwire'
    cases hwire'
    exact h
  offline hwire' := by
    rw [hwire] at hwire'
    cases hwire'
  stopped hstop := by
    rw [hstopped] at hstop
    cases hstop

lemma offline_holds {world : World} (hwire : world.wire = none)
    (h : Rested world.calls world.trace) : Holds world where
  connected wire' hwire' := by
    rw [hwire] at hwire'
    cases hwire'
  offline _ := h
  stopped _ := hwire

lemma went_holds {world : World} {r : Except Work Work} (h : Keeps world.calls r)
    (hstopped : world.stopped = false) : Holds (world.went r) := by
  cases r with
  | ok w =>
    have hkept : Kept world.calls w.wire w.trace := h
    exact connected_holds rfl hkept hstopped
  | error w =>
    have hlost : Lost world.calls w.wire w.trace := h
    exact offline_holds rfl (dropPending_rested hlost)

lemma about_took {call : ℕ} (more : List Entry) (hfresh : about call trace = []) :
    about call (trace ++ more) = about call more := by
  rw [about_append, hfresh, List.nil_append]

lemma about_others {other : ℕ} {more : List Entry}
    (hmore : ∀ entry ∈ more, concerns other entry = false) :
    about other (trace ++ more) = about other trace := by
  have hnone : about other more = [] := List.filter_eq_nil_iff.2 fun entry hentry => by
    simp [hmore entry hentry]
  rw [about_append, hnone, List.append_nil]

def atOnce (call : ℕ) (result : Except String Unit) : List Entry :=
  [.took call none, .replied call result]

lemma settled_atOnce {call : ℕ} (result : Except String Unit) (hfresh : about call trace = []) :
    Settled call (trace ++ atOnce call result) := by
  refine ⟨none, [], result, ?_, rfl⟩
  rw [about_took _ hfresh]
  simp [about, atOnce, concerns, entries]

lemma atOnce_others {call other : ℕ} (hne : call ≠ other) (result : Except String Unit) :
    ∀ entry ∈ atOnce call result, concerns other entry = false := by
  simp [atOnce, concerns, hne]

lemma Rested.atOnce (h : Rested calls trace) (result : Except String Unit) :
    Rested (calls + 1) (trace ++ atOnce calls result) where
  fresh call hcall := by
    rw [about_others (atOnce_others (by omega) result), h.fresh call (by omega)]
  settled call hcall := by
    by_cases hcase : calls = call
    · subst hcase
      exact settled_atOnce result (h.fresh calls le_rfl)
    · unfold Settled
      rw [about_others (atOnce_others hcase result)]
      exact h.settled call (by omega)

lemma Kept.atOnce (h : Kept calls wire trace) (result : Except String Unit) :
    Kept (calls + 1) wire (trace ++ atOnce calls result) where
  fresh call hcall := by
    rw [about_others (atOnce_others (by omega) result), h.fresh call (by omega)]
  settled call hcall hother := by
    by_cases hcase : calls = call
    · subst hcase
      exact settled_atOnce result (h.fresh calls le_rfl)
    · unfold Settled
      rw [about_others (atOnce_others hcase result)]
      exact h.settled call (by omega) hother
  waiting p hp := by
    obtain ⟨hlt, hwaiting, hquits⟩ := h.waiting p hp
    refine ⟨by omega, ?_, hquits⟩
    unfold Waiting
    rw [about_others (atOnce_others (by omega) result)]
    exact hwaiting
  deadline := h.deadline

lemma Rested.begun (h : Rested calls trace) (command : Command) :
    Others (calls + 1) calls (trace ++ [.took calls (some command)]) where
  lt := Nat.lt_succ_self calls
  fresh other hother := by
    rw [about_note (by simp [concerns]; omega), h.fresh other (by omega)]
  settled other hother hne := by
    unfold Settled
    rw [about_note (by simp [concerns, hne])]
    exact h.settled other (by omega)

lemma plan_quits {service : Service} {snap : Snap} {command : Command}
    (h : plan service snap = .command command) (hquits : quits (.start command) = true) :
    snap.sessionId.isSome := by
  cases service with
  | turnOn =>
    simp only [plan, turnOn] at h
    split_ifs at h
    cases h
    cases hsession : snap.sessionId.isSome with
    | true => rfl
    | false => simp [hsession, Flight.start, quits] at hquits
  | playMedia media =>
    simp only [plan, play] at h
    split_ifs at h
    cases h
    cases hsession : snap.sessionId.isSome with
    | true => rfl
    | false =>
      simp only [hsession, Bool.and_false, Flight.start, Bool.false_eq_true, if_false] at hquits
      split_ifs at hquits <;> cases hquits
  | turnOff =>
    simp only [plan] at h
    split_ifs at h with hsession
    exact hsession
  | volumeSet volume => cases h; simp [Flight.start, quits] at hquits
  | volumeMute mute => cases h; simp [Flight.start, quits] at hquits
  | other => cases h
  | play | pause | playPause | stop | seek | nextTrack | previousTrack =>
    simp only [plan, mediaStep] at h
    split_ifs at h <;> cases h <;> simp [Flight.start, quits] at hquits

lemma takeCall_holds {world : World} (h : Holds world) (hwire : world.wire = some wire)
    (hstopped : world.stopped = false) (service : Service) (now writes : ℕ) :
    Holds (world.takeCall wire service now writes) := by
  have hkept := h.connected wire hwire
  have hanswer (cause : Option ℕ) (result : Except String Unit) :
      Holds { world with
        calls := world.calls + 1
        wire := some { wire with cause }
        trace := world.trace ++ [.took world.calls none, .replied world.calls result] } :=
    connected_holds rfl ((hkept.atOnce result).of_wire rfl rfl) hstopped
  unfold World.takeCall
  dsimp only
  split_ifs with hpending
  · exact hanswer _ _
  · have hnone : wire.pending = none := by simpa using hpending
    cases hplan : plan service wire.snap with
    | ready => exact hanswer _ _
    | fail message => exact hanswer _ _
    | command command =>
      let p : Pending := ⟨world.calls, .start command, now + commandDeadline⟩
      let wire' : Wire := { wire with pending := some p, waitDeadline := some p.deadline }
      let trace' := world.trace ++ [.took world.calls (some command)]
      have habout : about world.calls trace' =
          .took p.call (some command) :: entries p.call [] := by
        rw [about_took _ (hkept.fresh world.calls le_rfl)]
        simp [about, concerns, entries, p]
      have hpump : Keeps (world.calls + 1) (Work.pump ⟨wire', trace', writes⟩) :=
        pump_advances (p := p) (w := ⟨wire', trace', writes⟩) ((hkept.rested hnone).begun command)
          rfl rfl habout (under_start command) (plan_quits hplan)
      let world' : World := { world with calls := world.calls + 1 }
      have hpump' : Keeps world'.calls (Work.pump ⟨wire', trace', writes⟩) := hpump
      exact went_holds hpump' hstopped

lemma Kept.expired {p : Pending} (h : Kept calls wire trace) (hp : wire.pending = some p)
    (message : String) : Rested calls (trace ++ [.replied p.call (.error message)]) := by
  obtain ⟨-, ⟨command, writes, habout, hunder⟩, -⟩ := h.waiting p hp
  exact (h.lost.others hp).answered (.error message) habout (.inr ⟨_, hunder⟩) nofun

lemma step_holds {world : World} (h : Holds world) (event : Event) : Holds (world.step event) := by
  unfold World.step
  split_ifs with hstopped
  · exact h
  · have hstopped : world.stopped = false := by simpa using hstopped
    cases hwire : world.wire with
    | none =>
      have hrested := h.offline hwire
      cases event with
      | connects writes =>
        have hstart : Kept world.calls (.start (nextId 0)) world.trace := hrested.kept rfl rfl
        refine went_holds (Keeps.bind ?_ fun w hw => send_none hw _) hstopped
        exact send_none (w := ⟨_, world.trace, writes⟩) hstart _
      | call service now writes =>
        exact offline_holds rfl (hrested.atOnce _)
      | closed =>
        exact offline_holds rfl hrested
      | frame message heard writes => exact h
      | heartbeat writes => exact h
      | deadline now => exact h
    | some wire =>
      have hkept := h.connected wire hwire
      cases event with
      | connects writes => exact h
      | frame message heard writes =>
        cases message with
        | none => exact went_holds hkept.lost hstopped
        | some message =>
          exact went_holds (handle_keeps (w := ⟨wire, world.trace, writes⟩) hkept heard message)
            hstopped
      | heartbeat writes =>
        exact went_holds (send_none (w := ⟨wire, world.trace, writes⟩) hkept _) hstopped
      | call service now writes => exact takeCall_holds h hwire hstopped service now writes
      | closed =>
        have hlost : Lost world.calls wire world.trace := hkept.lost
        exact offline_holds rfl (dropPending_rested (w := ⟨wire, world.trace, 0⟩) hlost)
      | deadline now =>
        dsimp only
        cases hdeadline : wire.waitDeadline with
        | none => exact h
        | some deadline =>
          dsimp only
          split_ifs with hnow
          · exact h
          · cases hp : wire.pending with
            | none =>
              have := hkept.deadline
              rw [hdeadline, hp] at this
              cases this
            | some p =>
              exact connected_holds rfl ((hkept.expired hp _).kept rfl rfl) hstopped

lemma run_holds {world : World} (h : Holds world) (events : List Event) :
    Holds (world.run events) := by
  induction events generalizing world with
  | nil => exact h
  | cons event events ih => exact ih (step_holds h event)

lemma start_holds : Holds .start :=
  offline_holds rfl ⟨fun _ _ => rfl, fun call hcall => absurd hcall (Nat.not_lt_zero call)⟩

/-! ### What a command writes, and when it is answered -/

/-- A command that may stop a session, launch the default receiver and load media. -/
def launches : Command → Bool
  | .once _ => false
  | .turnOn _ => true
  | .play _ _ _ => true

/-- At most one STOP, one LAUNCH and one LOAD, in that order: the LAUNCH when the receiver had last
said it has no session, where one was asked to stop, and the LOAD to the transport it had last said
there is. -/
def Ordered (writes : Writes) : Prop :=
  ∃ stop launch load, writes = stop ++ launch ++ load ∧ (stop = [] ∨ Stopped stop) ∧
    (launch = [] ∨ ∃ id snap, launch = [(.launch id, snap)] ∧
      (stop ≠ [] → snap.sessionId = none)) ∧
    (load = [] ∨ ∃ transport body id snap, load = [(.load transport body id, snap)] ∧
      snap.transportId = some transport)

section Ordered

variable {quit launch : Bool} {body : LoadBody} {writes : Writes}

lemma ordered_nil : Ordered [] := ⟨[], [], [], rfl, .inl rfl, .inl rfl, .inl rfl⟩

lemma Stopped.ordered (h : Stopped writes) : Ordered writes :=
  ⟨writes, [], [], by simp, .inr h, .inl rfl, .inl rfl⟩

lemma Launched.ordered (h : Launched quit writes) {load : Writes}
    (hload : load = [] ∨ ∃ transport body id snap, load = [(.load transport body id, snap)] ∧
      snap.transportId = some transport) : Ordered (writes ++ load) := by
  obtain ⟨before, id, snap, rfl, hbefore⟩ := h
  cases quit with
  | true =>
    obtain ⟨hstopped, hsnap⟩ := hbefore
    exact ⟨before, [(.launch id, snap)], load, rfl, .inr hstopped,
      .inr ⟨id, snap, rfl, fun _ => hsnap⟩, hload⟩
  | false =>
    have hbefore : before = [] := hbefore
    exact ⟨before, [(.launch id, snap)], load, rfl, .inl hbefore,
      .inr ⟨id, snap, rfl, fun hne => absurd hbefore hne⟩, hload⟩

lemma Opened.ordered (h : Opened quit launch writes) {load : Writes}
    (hload : load = [] ∨ ∃ transport body id snap, load = [(.load transport body id, snap)] ∧
      snap.transportId = some transport) : Ordered (writes ++ load) := by
  unfold Opened at h
  split_ifs at h
  · exact h.ordered hload
  · subst h
    exact ⟨[], [], load, rfl, .inl rfl, .inl rfl, hload⟩

lemma Launched.ordered_alone (h : Launched quit writes) : Ordered writes := by
  simpa using h.ordered (.inl rfl)

lemma Loaded.ordered (h : Loaded quit launch body writes) : Ordered writes := by
  obtain ⟨before, transport, id, snap, rfl, htransport, hopened⟩ := h
  exact hopened.ordered (.inr ⟨transport, body, id, snap, rfl, htransport⟩)

lemma under_ordered {command : Command} {flight : Flight} (h : Under command flight writes)
    (hlaunches : launches command = true) : Ordered writes := by
  cases command with
  | once asked => cases hlaunches
  | turnOn quit =>
    cases flight with
    | once asked => exact h.elim
    | play body phase => exact h.elim
    | turnOn phase =>
      cases phase with
      | quit => exact h.2 ▸ ordered_nil
      | waitQuit => exact h.2.ordered
      | launch => exact h.2 ▸ ordered_nil
  | play quit launch body =>
    cases flight with
    | once asked => exact h.elim
    | turnOn phase => exact h.elim
    | play body' phase =>
      obtain ⟨-, hphase⟩ := h
      cases phase with
      | quit => exact hphase.2 ▸ ordered_nil
      | waitQuit => exact hphase.2.ordered
      | launch => exact hphase.2.2 ▸ ordered_nil
      | waitLaunch => exact hphase.2.ordered_alone
      | load => simpa using Opened.ordered hphase (.inl rfl)

lemma done_ordered {command : Command} (h : Done command writes)
    (hlaunches : launches command = true) : Ordered writes := by
  cases command with
  | once asked => cases hlaunches
  | turnOn quit => exact Launched.ordered_alone h
  | play quit launch body => exact Loaded.ordered h

end Ordered

lemma deadline_ends {world : World} (h : Holds world) {p : Pending}
    (hp : world.wire.bind Wire.pending = some p) {now : ℕ} (hnow : p.deadline ≤ now) :
    (world.step (.deadline now)).wire.bind Wire.pending = none := by
  obtain ⟨wire, hwire, hpending⟩ := Option.bind_eq_some_iff.1 hp
  have hdeadline : wire.waitDeadline = some p.deadline := by
    rw [(h.connected wire hwire).deadline, hpending]
    rfl
  unfold World.step
  split_ifs with hstopped
  · rw [h.stopped hstopped] at hwire
    cases hwire
  · rw [hwire]
    dsimp only
    rw [hdeadline]
    dsimp only
    rw [if_neg (by omega), hpending]
    rfl

/-- Every call a device's task takes has one end. One is pending at most, and only that one has a
deadline, which ends it; nothing is written for a call once it is answered, and one is told it went
well only when all its command asks for was written. -/
theorem run_answers (events : List Event) :
    let world := World.start.run events
    let pending := world.wire.bind Wire.pending
    (∀ call < world.calls, ∃ command writes,
      (if pending.map Pending.call = some call then
        about call world.trace = .took call command :: entries call writes
      else ∃ result, about call world.trace =
          .took call command :: (entries call writes ++ [.replied call result]) ∧
        (result = .ok () → ∀ asked, command = some asked → Done asked writes)) ∧
      (∀ asked, command = some asked → launches asked = true → Ordered writes) ∧
      (command = none → writes = [])) ∧
    (∀ call, world.calls ≤ call → about call world.trace = []) ∧
    (∀ p, pending = some p → p.call < world.calls) ∧
    world.wire.bind Wire.waitDeadline = pending.map Pending.deadline ∧
    (∀ p now, pending = some p → p.deadline ≤ now →
      (world.step (.deadline now)).wire.bind Wire.pending = none) ∧
    (world.stopped = true → pending = none) := by
  intro world pending
  have hholds : Holds world := run_holds start_holds events
  -- one call, over: what it asked for and what it was told
  have hsettled (call : ℕ) (h : Settled call world.trace) : ∃ command writes,
      (∃ result, about call world.trace =
          .took call command :: (entries call writes ++ [.replied call result]) ∧
        (result = .ok () → ∀ asked, command = some asked → Done asked writes)) ∧
      (∀ asked, command = some asked → launches asked = true → Ordered writes) ∧
      (command = none → writes = []) := by
    obtain ⟨command, writes, result, habout, hwrites⟩ := h
    cases command with
    | none => exact ⟨none, writes, ⟨result, habout, nofun⟩, nofun, fun _ => hwrites⟩
    | some asked =>
      obtain ⟨hdone, hpartly⟩ := hwrites
      refine ⟨some asked, writes, ⟨result, habout, ?_⟩, ?_, nofun⟩
      · rintro hok asked' ⟨⟩
        exact hdone hok
      · rintro asked' ⟨⟩ hlaunches
        rcases hpartly with hdone | ⟨flight, hunder⟩
        · exact done_ordered hdone hlaunches
        · exact under_ordered hunder hlaunches
  cases hwire : world.wire with
  | none =>
    have hpending : pending = none := by simp only [pending, hwire]; rfl
    have hrested := hholds.offline hwire
    rw [hpending]
    refine ⟨fun call hcall => ?_, hrested.fresh, nofun, rfl, nofun, fun _ => rfl⟩
    obtain ⟨command, writes, hanswered, hrest⟩ := hsettled call (hrested.settled call hcall)
    exact ⟨command, writes, by rwa [if_neg (by simp)], hrest⟩
  | some wire =>
    have hpending : pending = wire.pending := by simp only [pending, hwire]; rfl
    have hkept := hholds.connected wire hwire
    refine ⟨fun call hcall => ?_, hkept.fresh, fun p hp => ?_, ?_, fun p now hp hnow => ?_,
      fun hstopped => ?_⟩
    · rw [hpending]
      by_cases hcase : wire.pending.map Pending.call = some call
      · obtain ⟨p, hp, rfl⟩ := Option.map_eq_some_iff.1 hcase
        obtain ⟨-, ⟨command, writes, habout, hunder⟩, -⟩ := hkept.waiting p hp
        refine ⟨some command, writes, by rwa [if_pos hcase], ?_, nofun⟩
        rintro asked ⟨⟩ hlaunches
        exact under_ordered hunder hlaunches
      · have hother (p : Pending) (hp : wire.pending = some p) : p.call ≠ call := by
          rintro rfl
          exact hcase (by rw [hp]; rfl)
        obtain ⟨command, writes, hanswered, hrest⟩ :=
          hsettled call (hkept.settled call hcall hother)
        exact ⟨command, writes, by rwa [if_neg hcase], hrest⟩
    · rw [hpending] at hp
      exact (hkept.waiting p hp).1
    · rw [hpending]
      exact hkept.deadline
    · exact deadline_ends hholds hp hnow
    · rw [hholds.stopped hstopped] at hwire
      cases hwire

end Irori.Cast.Proofs

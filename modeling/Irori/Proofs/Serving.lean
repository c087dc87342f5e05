import Irori.Process.Serve
import Irori.Lib.Index

/-!
# Every request is answered once

What is put on the queue for a request that was read, and when no result is lost; and when no
request of the protocol waits for a reply that can't come.
-/

namespace Irori.Process

/-- Every request read is still with the protocol, or its answer waits to be put, or its result was
put, once; a line ends the operation that was given its id; and nothing waits for a reply once the
reader has stopped. -/
structure Served (s : Serve) : Prop where
  answered : s.writer.isGone = false → ∀ ask : Ask,
    s.put.count ask + (s.tasks.map Task.ask).count ask + s.putting.count ask = s.asked.count ask
  ended : ∀ ended ∈ s.ended, (ended.id, ended.token) ∈ s.sent
  left : s.isStopped = true → s.wanted = []

section

variable (sizes : Sizes)

def AllServed (s : Serve) : List Step → Prop
  | [] => Served s
  | step :: steps => Served s ∧ AllServed (s.after sizes step) steps

def Serve.endsAt (s : Serve) : Option ToExt → Bool
  | none => true
  | some .stop => true
  | some (.request _ _) => !s.listening
  | _ => false

/-- There is room for a result that a task puts, and the reader stops while nothing is waited for, as
nothing is after. -/
def Heeds (s : Serve) : Step → Prop
  | .taskRuns ask =>
    (Serve.due ask s.tasks).isSome = true → s.writer.isGone = false → s.hasRoom sizes = true
  | .line line => s.isReading = true → s.endsAt line = true → s.wanted = []
  | .asks op => s.isStopped = true → op.waits = true → s.pump.isGone = true ∨
      sizes.ops ≤ s.ops.length
  | _ => True

def AllHeed (s : Serve) : List Step → Prop
  | [] => True
  | step :: steps => Heeds sizes s step ∧ AllHeed (s.after sizes step) steps

end

variable {sizes : Sizes} {s : Serve} {ask : Ask}

lemma answer_asks (ask : Ask) (outcome : Outcome) (tasks : List Task) :
    (Serve.answer ask outcome tasks).map Task.ask = tasks.map Task.ask := by
  induction tasks with
  | nil => rfl
  | cons task tasks ih =>
    unfold Serve.answer
    split_ifs with hfound
    · rw [List.map_cons, List.map_cons, hfound.1]
    · rw [List.map_cons, List.map_cons, ih]

lemma due_count {tasks rest : List Task} {outcome : Outcome}
    (h : Serve.due ask tasks = some (outcome, rest)) (other : Ask) :
    (tasks.map Task.ask).count other =
      (rest.map Task.ask).count other + [ask].count other := by
  induction tasks generalizing rest with
  | nil => cases h
  | cons task tasks ih =>
    unfold Serve.due at h
    have hlater : ∀ found : Option (Outcome × List Task), Serve.due ask tasks = found →
        (found.map fun later => (later.1, task :: later.2)) = some (outcome, rest) →
          ((task :: tasks).map Task.ask).count other =
            (rest.map Task.ask).count other + [ask].count other := by
      intro found hfound hrest
      obtain ⟨⟨outcome', rest'⟩, rfl, hsame⟩ := Option.map_eq_some_iff.mp hrest
      cases hsame
      dsimp only
      rw [List.map_cons, List.map_cons, List.count_cons, List.count_cons, ih hfound]
      omega
    cases houtcome : task.outcome with
    | none =>
      rw [houtcome] at h
      exact hlater _ rfl h
    | some found =>
      rw [houtcome] at h
      dsimp only at h
      split_ifs at h with hask
      · cases h
        rw [List.map_cons, List.count_cons, hask, List.count_singleton]
      · exact hlater _ rfl h

/-- The requests that are read, with their tasks and what becomes of their results. -/
structure Books where
  gone : Bool
  put : List Ask
  asks : List Ask
  putting : List Ask
  asked : List Ask

def Serve.books (s : Serve) : Books :=
  ⟨s.writer.isGone, s.put, s.tasks.map Task.ask, s.putting, s.asked⟩

/-- Every request is in the books once. -/
def Books.Balanced (books : Books) : Prop :=
  books.gone = false → ∀ ask : Ask,
    books.put.count ask + books.asks.count ask + books.putting.count ask = books.asked.count ask

lemma putting_of_reading (h : s.isReading = true) : s.putting = [] := by
  unfold Serve.isReading at h
  unfold Serve.putting
  cases hreader : s.reader with
  | reading => rfl
  | putting ask outcome =>
    rw [hreader] at h
    cases h
  | stopped => rfl

lemma enqueueJson_balanced (hreading : s.isReading = true) (outcome : Outcome)
    (h : s.writer.isGone = false → ∀ other : Ask, s.put.count other +
      (s.tasks.map Task.ask).count other + [ask].count other = s.asked.count other) :
    (s.enqueueJson sizes ask outcome).books.Balanced := by
  unfold Serve.enqueueJson
  split_ifs with hgone hroom
  · intro hnot
    exact absurd hgone (by rw [show s.writer.isGone = false from hnot]; decide)
  · intro hnot other
    have hother := h hnot other
    show (s.put ++ [ask]).count other + (s.tasks.map Task.ask).count other +
      s.putting.count other = s.asked.count other
    rw [putting_of_reading hreading, List.count_append, List.count_nil]
    omega
  · exact fun hnot => h hnot

lemma handOver_balanced (hreading : s.isReading = true) (h : s.books.Balanced) (request : Request)
    (isFull : Bool) {push : Serve → Serve} (hpush : ∀ s : Serve, (push s).books = s.books) :
    (s.handOver sizes ask request isFull push).books.Balanced := by
  have hputting := putting_of_reading hreading
  unfold Serve.handOver
  split_ifs with hlistens hfull
  · intro hnot other
    have hother := h hnot other
    rw [show s.books.putting = [] from hputting] at hother
    exact hother
  · refine enqueueJson_balanced (s := { s with asked := s.asked ++ [ask] }) hreading _ ?_
    intro hnot other
    have hother := h hnot other
    rw [show s.books.putting = [] from hputting] at hother
    show s.put.count other + (s.tasks.map Task.ask).count other + [ask].count other =
      (s.asked ++ [ask]).count other
    rw [List.count_append]
    exact congrArg (· + [ask].count other) hother
  · rw [hpush]
    intro hnot other
    have hother := h hnot other
    show s.put.count other + ((s.tasks ++ [(⟨ask, none⟩ : Task)]).map Task.ask).count other +
      s.putting.count other = (s.asked ++ [ask]).count other
    rw [List.map_append, List.count_append, List.count_append]
    have hsame : s.put.count other + (s.tasks.map Task.ask).count other +
      s.putting.count other = s.asked.count other := hother
    simp only [List.map_cons, List.map_nil]
    omega

lemma line_balanced (hreading : s.isReading = true) (h : s.books.Balanced)
    (line : Option ToExt) : (s.handleHostLine sizes line).books.Balanced := by
  have hstopped : ({ s with reader := .stopped } : Serve).books.Balanced := by
    intro hnot other
    have hother := h hnot other
    rw [show s.books.putting = [] from putting_of_reading hreading] at hother
    exact hother
  cases line with
  | none => exact hstopped
  | some line =>
    cases line with
    | reply id error =>
      show (s.completeReply id error).books.Balanced
      unfold Serve.completeReply
      split
      · exact h
      · exact h
    | loaded id value error =>
      show (s.completeLoad id value error).books.Balanced
      unfold Serve.completeLoad
      split
      · exact h
      · exact h
    | request id request =>
      cases request with
      | serviceCall call => exact handOver_balanced hreading h _ _ fun _ => rfl
      | actionCall actionId stop way fields => exact handOver_balanced hreading h _ _ fun _ => rfl
      | unpairDevice uniqueId force => exact handOver_balanced hreading h _ _ fun _ => rfl
      | cameraPicture uniqueId => exact handOver_balanced hreading h _ _ fun _ => rfl
    | stop => exact hstopped
    | other => exact h

lemma encodeOp_books (s : Serve) (token : Nat) (op : Op) : (s.encodeOp token op).books = s.books := by
  cases op <;> rfl

lemma offerReport_books (s : Serve) : (s.offerReport sizes).books = s.books := by
  unfold Serve.offerReport
  split
  · rfl
  · split_ifs <;> rfl

lemma after_balanced (h : s.books.Balanced) {step : Step} (hheeds : Heeds sizes s step) :
    (s.after sizes step).books.Balanced := by
  unfold Serve.after
  cases step with
  | line line =>
    dsimp only
    split_ifs with hreading
    · exact line_balanced hreading h line
    · exact h
  | readerPuts =>
    dsimp only
    cases hreader : s.reader with
    | reading => exact h
    | stopped => exact h
    | putting ask outcome =>
      have hputting : s.putting = [ask] := by
        unfold Serve.putting
        rw [hreader]
      dsimp only
      split_ifs with hgone hroom
      · intro hnot
        exact absurd hgone (by rw [show s.writer.isGone = false from hnot]; decide)
      · intro hnot other
        have hother : s.put.count other + (s.tasks.map Task.ask).count other +
          s.putting.count other = s.asked.count other := h hnot other
        show (s.put ++ [ask]).count other + (s.tasks.map Task.ask).count other +
          ([] : List Ask).count other = s.asked.count other
        rw [hputting] at hother
        rw [List.count_append, List.count_nil]
        omega
      · exact h
  | takesCall =>
    dsimp only
    split <;> exact h
  | takesAction =>
    dsimp only
    split <;> exact h
  | answers ask outcome =>
    dsimp only
    split_ifs
    · intro hnot other
      have hother : s.put.count other + (s.tasks.map Task.ask).count other +
        s.putting.count other = s.asked.count other := h hnot other
      show s.put.count other + ((Serve.answer ask outcome s.tasks).map Task.ask).count other +
        s.putting.count other = s.asked.count other
      rw [answer_asks]
      exact hother
    · exact h
  | drops ask =>
    dsimp only
    split_ifs
    · intro hnot other
      have hother : s.put.count other + (s.tasks.map Task.ask).count other +
        s.putting.count other = s.asked.count other := h hnot other
      show s.put.count other + ((Serve.answer ask ask.kind.dropped s.tasks).map
        Task.ask).count other + s.putting.count other = s.asked.count other
      rw [answer_asks]
      exact hother
    · exact h
  | stopsListening =>
    intro hnot other
    have hother : s.put.count other + (s.tasks.map Task.ask).count other +
      s.putting.count other = s.asked.count other := h hnot other
    show s.put.count other + (((s.tasks.map fun task => (⟨task.ask,
      some (task.outcome.getD task.ask.kind.dropped)⟩ : Task))).map Task.ask).count other +
        s.putting.count other = s.asked.count other
    rw [List.map_map]
    exact hother
  | taskRuns ask =>
    dsimp only
    unfold Serve.runTask
    cases hdue : Serve.due ask s.tasks with
    | none => exact h
    | some found =>
      obtain ⟨outcome, rest⟩ := found
      dsimp only
      split_ifs with hgone hroom
      · intro hnot
        exact absurd hgone (by rw [show s.writer.isGone = false from hnot]; decide)
      · intro hnot other
        have hother : s.put.count other + (s.tasks.map Task.ask).count other +
          s.putting.count other = s.asked.count other := h hnot other
        show (s.put ++ [ask]).count other + (rest.map Task.ask).count other +
          s.putting.count other = s.asked.count other
        rw [due_count hdue other] at hother
        rw [List.count_append]
        omega
      · exact absurd (hheeds (by rw [hdue]; rfl) (Bool.eq_false_iff.mpr hgone)) hroom
  | asks op =>
    dsimp only
    split_ifs <;> exact h
  | givesUp token => exact h
  | reported reports => exact h
  | pumpTakes =>
    dsimp only
    split
    · rw [encodeOp_books]
      exact h
    · rw [encodeOp_books]
      exact h
    · exact h
  | pumpSends =>
    dsimp only
    split
    · split_ifs <;> exact h
    · exact h
  | pumpOffers =>
    dsimp only
    split
    · rw [offerReport_books]
      exact h
    · rw [offerReport_books]
      exact h
    · exact h
  | pumpHasRoom =>
    dsimp only
    split
    · split_ifs <;> exact h
    · exact h
  | writerTakes =>
    dsimp only
    split
    · next hwriter hout =>
      intro hnot
      exact h (by show s.writer.isGone = false; rw [hwriter]; rfl)
    · exact h
  | writerWrites =>
    dsimp only
    split
    · next line hwriter =>
      intro hnot
      exact h (by show s.writer.isGone = false; rw [hwriter]; rfl)
    · exact h
  | writerFails => exact fun hnot => nomatch hnot

structure Sent (s : Serve) : Prop where
  replies : ∀ id token : Nat, s.replies[id]? = some token → (id, token) ∈ s.sent
  loads : ∀ id token : Nat, s.loads[id]? = some token → (id, token) ∈ s.sent
  ended : ∀ ended ∈ s.ended, (ended.id, ended.token) ∈ s.sent

lemma sent_of_same {s' : Serve} (h : Sent s) (hreplies : s'.replies = s.replies)
    (hloads : s'.loads = s.loads) (hended : s'.ended = s.ended) (hsent : s'.sent = s.sent) :
    Sent s' := by
  refine ⟨?_, ?_, ?_⟩
  · rw [hreplies, hsent]
    exact h.replies
  · rw [hloads, hsent]
    exact h.loads
  · rw [hended, hsent]
    exact h.ended

lemma Sent.completeReply (h : Sent s) (id : Nat) (error : Option String) :
    Sent (s.completeReply id error) := by
  unfold Serve.completeReply
  split
  · next token htoken =>
    refine ⟨fun other token' htoken' => ?_, h.loads, fun ended hended => ?_⟩
    · exact h.replies other token' (Map.get_erase_some htoken').2
    · rw [List.mem_append, List.mem_singleton] at hended
      rcases hended with hended | rfl
      · exact h.ended ended hended
      · exact h.replies id token htoken
  · exact h

lemma Sent.completeLoad (h : Sent s) (id : Nat) (value : Option Json) (error : Option String) :
    Sent (s.completeLoad id value error) := by
  unfold Serve.completeLoad
  split
  · next token htoken =>
    refine ⟨h.replies, fun other token' htoken' => ?_, fun ended hended => ?_⟩
    · exact h.loads other token' (Map.get_erase_some htoken').2
    · rw [List.mem_append, List.mem_singleton] at hended
      rcases hended with hended | rfl
      · exact h.ended ended hended
      · exact h.loads id token htoken
  · exact h

lemma Sent.encodeOp (h : Sent s) (token : Nat) (op : Op) : Sent (s.encodeOp token op) := by
  have hlater : ∀ pair : Nat × Nat, pair ∈ s.sent → pair ∈ s.sent ++ [(s.nextId, token)] :=
    fun pair hpair => List.mem_append_left _ hpair
  have hnew : (s.nextId, token) ∈ s.sent ++ [(s.nextId, token)] :=
    List.mem_append_right _ List.mem_cons_self
  cases op with
  | told op =>
    exact ⟨fun id token' hid => hlater _ (h.replies id token' hid),
      fun id token' hid => hlater _ (h.loads id token' hid),
      fun ended hended => hlater _ (h.ended ended hended)⟩
  | replied op =>
    refine ⟨fun id token' hid => ?_, fun id token' hid => hlater _ (h.loads id token' hid),
      fun ended hended => hlater _ (h.ended ended hended)⟩
    have hget : (s.replies.insert s.nextId token)[id]? = some token' := hid
    rw [Map.get_insert] at hget
    split_ifs at hget with hsame
    · cases hget
      rw [← hsame]
      exact hnew
    · exact hlater _ (h.replies id token' hget)
  | load key =>
    refine ⟨fun id token' hid => hlater _ (h.replies id token' hid), fun id token' hid => ?_,
      fun ended hended => hlater _ (h.ended ended hended)⟩
    have hget : (s.loads.insert s.nextId token)[id]? = some token' := hid
    rw [Map.get_insert] at hget
    split_ifs at hget with hsame
    · cases hget
      rw [← hsame]
      exact hnew
    · exact hlater _ (h.loads id token' hget)

/-- What a step that is none of the protocol's operations leaves of them. -/
structure SameOps (s s' : Serve) : Prop where
  replies : s'.replies = s.replies
  loads : s'.loads = s.loads
  ended : s'.ended = s.ended
  sent : s'.sent = s.sent
  wanted : s'.wanted = s.wanted

lemma sameOps_enqueueJson (sizes : Sizes) (s : Serve) (ask : Ask) (outcome : Outcome) :
    SameOps s (s.enqueueJson sizes ask outcome) := by
  unfold Serve.enqueueJson
  split_ifs <;> exact ⟨rfl, rfl, rfl, rfl, rfl⟩

lemma sameOps_handOver (s : Serve) (ask : Ask) (request : Request) (isFull : Bool)
    {push : Serve → Serve} (hpush : ∀ s : Serve, SameOps s (push s)) :
    SameOps s (s.handOver sizes ask request isFull push) := by
  unfold Serve.handOver
  split_ifs
  · exact ⟨rfl, rfl, rfl, rfl, rfl⟩
  · obtain ⟨hreplies, hloads, hended, hsent, hwanted⟩ :=
      sameOps_enqueueJson sizes { s with asked := s.asked ++ [ask] } ask
        request.kind.busy
    exact ⟨hreplies, hloads, hended, hsent, hwanted⟩
  · obtain ⟨hreplies, hloads, hended, hsent, hwanted⟩ :=
      hpush { s with asked := s.asked ++ [ask], tasks := s.tasks ++ [⟨ask, none⟩] }
    exact ⟨hreplies, hloads, hended, hsent, hwanted⟩

lemma sameOps_request (s : Serve) (id : Nat) (request : Request) :
    SameOps s (s.handleHostLine sizes (some (.request id request))) := by
  have hactions : SameOps s (s.handOver sizes ⟨request.kind, id⟩ request
      (sizes.actions ≤ s.actions.length) fun s =>
        { s with actions := s.actions ++ [(⟨request.kind, id⟩, request)] }) :=
    sameOps_handOver s _ _ _ fun _ => ⟨rfl, rfl, rfl, rfl, rfl⟩
  cases request with
  | serviceCall call =>
    have hcalls : SameOps s (s.handOver sizes ⟨.service, id⟩ (.serviceCall call)
        (sizes.calls ≤ s.calls.length) fun s =>
          { s with calls := s.calls ++ [(⟨.service, id⟩, .serviceCall call)] }) :=
      sameOps_handOver s _ _ _ fun _ => ⟨rfl, rfl, rfl, rfl, rfl⟩
    exact hcalls
  | actionCall actionId stop way fields => exact hactions
  | unpairDevice uniqueId force => exact hactions
  | cameraPicture uniqueId => exact hactions

lemma sameOps_runTask (s : Serve) (ask : Ask) : SameOps s (s.runTask sizes ask) := by
  unfold Serve.runTask
  split
  · dsimp only
    split_ifs <;> exact ⟨rfl, rfl, rfl, rfl, rfl⟩
  · exact ⟨rfl, rfl, rfl, rfl, rfl⟩

lemma sent_offerReport (h : Sent s) : Sent (s.offerReport sizes) := by
  unfold Serve.offerReport
  split
  · exact sent_of_same h rfl rfl rfl rfl
  · split_ifs <;> exact sent_of_same h rfl rfl rfl rfl

lemma sent_after (h : Sent s) (step : Step) : Sent (s.after sizes step) := by
  have hsame : ∀ {s' : Serve}, SameOps s s' → Sent s' := fun hops =>
    sent_of_same h hops.replies hops.loads hops.ended hops.sent
  unfold Serve.after
  cases step with
  | line line =>
    dsimp only
    split_ifs with hreading
    · cases line with
      | none => exact sent_of_same h rfl rfl rfl rfl
      | some line =>
        cases line with
        | reply id error => exact h.completeReply id error
        | loaded id value error => exact h.completeLoad id value error
        | request id request => exact hsame (sameOps_request s id request)
        | stop => exact sent_of_same h rfl rfl rfl rfl
        | other => exact h
    · exact h
  | readerPuts =>
    dsimp only
    split
    · split_ifs <;> exact sent_of_same h rfl rfl rfl rfl
    · exact h
  | takesCall =>
    dsimp only
    split <;> exact sent_of_same h rfl rfl rfl rfl
  | takesAction =>
    dsimp only
    split <;> exact sent_of_same h rfl rfl rfl rfl
  | answers ask outcome =>
    dsimp only
    split_ifs <;> exact sent_of_same h rfl rfl rfl rfl
  | drops ask =>
    dsimp only
    split_ifs <;> exact sent_of_same h rfl rfl rfl rfl
  | stopsListening => exact sent_of_same h rfl rfl rfl rfl
  | taskRuns ask => exact hsame (sameOps_runTask s ask)
  | asks op =>
    dsimp only
    split_ifs <;> exact sent_of_same h rfl rfl rfl rfl
  | givesUp token => exact sent_of_same h rfl rfl rfl rfl
  | reported reports => exact sent_of_same h rfl rfl rfl rfl
  | pumpTakes =>
    dsimp only
    split
    · next token op ops _ _ =>
      exact Sent.encodeOp (s := { s with ops }) (sent_of_same h rfl rfl rfl rfl) token op
    · next token op ops _ _ =>
      exact Sent.encodeOp (s := { s with ops }) (sent_of_same h rfl rfl rfl rfl) token op
    · exact h
  | pumpSends =>
    dsimp only
    split
    · split_ifs <;> exact sent_of_same h rfl rfl rfl rfl
    · exact h
  | pumpOffers =>
    dsimp only
    split
    · exact sent_offerReport h
    · exact sent_offerReport h
    · exact h
  | pumpHasRoom =>
    dsimp only
    split
    · split_ifs <;> exact sent_of_same h rfl rfl rfl rfl
    · exact h
  | writerTakes =>
    dsimp only
    split <;> exact sent_of_same h rfl rfl rfl rfl
  | writerWrites =>
    dsimp only
    split <;> exact sent_of_same h rfl rfl rfl rfl
  | writerFails => exact sent_of_same h rfl rfl rfl rfl

structure Lessens (s s' : Serve) : Prop where
  stopped : s'.isStopped = s.isStopped
  wanted : s.wanted = [] → s'.wanted = []

lemma line_stopped (hreading : s.isReading = true) (line : Option ToExt) :
    (s.handleHostLine sizes line).isStopped = s.endsAt line := by
  have hstopped : s.isStopped = false := by
    unfold Serve.isReading at hreading
    unfold Serve.isStopped
    split at hreading
    · next h => rw [h]
    · cases hreading
  cases line with
  | none => rfl
  | some line =>
    cases line with
    | reply id error =>
      show (s.completeReply id error).isStopped = false
      unfold Serve.completeReply
      split <;> exact hstopped
    | loaded id value error =>
      show (s.completeLoad id value error).isStopped = false
      unfold Serve.completeLoad
      split <;> exact hstopped
    | request id request =>
      have hhand : ∀ (ask : Ask) (isFull : Bool) (push : Serve → Serve),
          (∀ s : Serve, (push s).isStopped = s.isStopped) →
            (s.handOver sizes ask request isFull push).isStopped = !s.listening := by
        intro ask isFull push hpush
        unfold Serve.handOver
        split_ifs with hlistens hfull
        · exact hlistens.symm
        · unfold Serve.enqueueJson
          rw [Bool.eq_false_iff.mpr hlistens]
          split_ifs
          · exact hstopped
          · exact hstopped
          · rfl
        · rw [hpush, Bool.eq_false_iff.mpr hlistens]
          exact hstopped
      cases request with
      | serviceCall call => exact hhand _ _ _ fun _ => rfl
      | actionCall actionId stop way fields => exact hhand _ _ _ fun _ => rfl
      | unpairDevice uniqueId force => exact hhand _ _ _ fun _ => rfl
      | cameraPicture uniqueId => exact hhand _ _ _ fun _ => rfl
    | stop => rfl
    | other => exact hstopped

lemma line_wanted {line : Option ToExt} (hends : s.endsAt line = true) :
    (s.handleHostLine sizes line).wanted = s.wanted := by
  cases line with
  | none => rfl
  | some line =>
    cases line with
    | reply id error => cases hends
    | loaded id value error => cases hends
    | request id request => exact (sameOps_request s id request).wanted
    | stop => rfl
    | other => cases hends

lemma lessens_encodeOp (s : Serve) (token : Nat) (op : Op) : Lessens s (s.encodeOp token op) := by
  have hforgotten : ∀ forgotten : Option Nat, s.wanted = [] →
      forgotten.elim s.wanted s.wanted.erase = [] := by
    intro forgotten hwanted
    rw [hwanted]
    cases forgotten <;> rfl
  cases op with
  | replied op => exact ⟨rfl, hforgotten _⟩
  | load key => exact ⟨rfl, hforgotten _⟩
  | told op => exact ⟨rfl, id⟩

lemma lessens_endPump (s : Serve) : Lessens s s.endPump := by
  refine ⟨rfl, fun hwanted => ?_⟩
  show s.wanted.filter _ = []
  rw [hwanted]
  rfl

lemma lessens_offerReport (s : Serve) : Lessens s (s.offerReport sizes) := by
  unfold Serve.offerReport
  split
  · exact ⟨rfl, id⟩
  · split_ifs
    · exact lessens_endPump s
    · exact ⟨rfl, id⟩
    · exact ⟨rfl, id⟩

lemma lessens_after {step : Step} (hline : ∀ line, step ≠ .line line)
    (hasks : ∀ op, step ≠ .asks op) : Lessens s (s.after sizes step) := by
  unfold Serve.after
  cases step with
  | line line => exact absurd rfl (hline line)
  | readerPuts =>
    dsimp only
    cases hreader : s.reader with
    | reading => exact ⟨rfl, id⟩
    | stopped => exact ⟨rfl, id⟩
    | putting ask outcome =>
      have hstopped : s.isStopped = false := by
        unfold Serve.isStopped
        rw [hreader]
      dsimp only
      split_ifs
      · exact ⟨hstopped.symm, id⟩
      · exact ⟨hstopped.symm, id⟩
      · exact ⟨rfl, id⟩
  | takesCall =>
    dsimp only
    split <;> exact ⟨rfl, id⟩
  | takesAction =>
    dsimp only
    split <;> exact ⟨rfl, id⟩
  | answers ask outcome =>
    dsimp only
    split_ifs <;> exact ⟨rfl, id⟩
  | drops ask =>
    dsimp only
    split_ifs <;> exact ⟨rfl, id⟩
  | stopsListening => exact ⟨rfl, id⟩
  | taskRuns ask =>
    dsimp only
    unfold Serve.runTask
    split
    · dsimp only
      split_ifs <;> exact ⟨rfl, id⟩
    · exact ⟨rfl, id⟩
  | asks op => exact absurd rfl (hasks op)
  | givesUp token =>
    refine ⟨rfl, fun hwanted => ?_⟩
    show s.wanted.erase token = []
    rw [hwanted]
    rfl
  | reported reports => exact ⟨rfl, id⟩
  | pumpTakes =>
    dsimp only
    split
    · next token op ops _ _ =>
      obtain ⟨hstopped, hwanted⟩ := lessens_encodeOp { s with ops } token op
      exact ⟨hstopped, hwanted⟩
    · next token op ops _ _ =>
      obtain ⟨hstopped, hwanted⟩ := lessens_encodeOp { s with ops } token op
      exact ⟨hstopped, hwanted⟩
    · exact ⟨rfl, id⟩
  | pumpSends =>
    dsimp only
    split
    · split_ifs
      · exact lessens_endPump s
      · exact ⟨rfl, id⟩
      · exact ⟨rfl, id⟩
    · exact ⟨rfl, id⟩
  | pumpOffers =>
    dsimp only
    split
    · exact lessens_offerReport s
    · exact lessens_offerReport s
    · exact ⟨rfl, id⟩
  | pumpHasRoom =>
    dsimp only
    split
    · split_ifs <;> exact ⟨rfl, id⟩
    · exact ⟨rfl, id⟩
  | writerTakes =>
    dsimp only
    split <;> exact ⟨rfl, id⟩
  | writerWrites =>
    dsimp only
    split <;> exact ⟨rfl, id⟩
  | writerFails => exact ⟨rfl, id⟩

lemma left_after (h : s.isStopped = true → s.wanted = []) {step : Step}
    (hheeds : Heeds sizes s step) :
    (s.after sizes step).isStopped = true → (s.after sizes step).wanted = [] := by
  have hlessens : Lessens s (s.after sizes step) →
      (s.after sizes step).isStopped = true → (s.after sizes step).wanted = [] :=
    fun hlessens hstopped => hlessens.wanted (h (hlessens.stopped.symm.trans hstopped))
  cases step with
  | line line =>
    by_cases hreading : s.isReading = true
    · have hafter : s.after sizes (.line line) = s.handleHostLine sizes line := if_pos hreading
      rw [hafter, line_stopped hreading]
      intro hends
      rw [line_wanted hends]
      exact hheeds hreading hends
    · have hafter : s.after sizes (.line line) = s := if_neg hreading
      rw [hafter]
      exact h
  | asks op =>
    unfold Serve.after
    dsimp only
    split_ifs with hgone hroom hwaits
    · exact h
    · intro hstopped
      rcases hheeds hstopped hwaits with hpump | hfull
      · exact absurd hpump hgone
      · exact absurd hroom (by omega)
    · exact h
    · exact h
  | _ => exact hlessens (lessens_after (fun _ => nofun) fun _ => nofun)

lemma served_of (hbooks : s.books.Balanced) (hsent : Sent s)
    (hleft : s.isStopped = true → s.wanted = []) : Served s :=
  ⟨hbooks, hsent.ended, hleft⟩

lemma heeds_of_served {step : Step} (h : Served s) (hafter : Served (s.after sizes step)) :
    Heeds sizes s step := by
  cases step with
  | line line =>
    intro hreading hends
    have hline : s.after sizes (.line line) = s.handleHostLine sizes line := if_pos hreading
    rw [hline] at hafter
    have hwanted : (s.handleHostLine sizes line).wanted = s.wanted := line_wanted hends
    rw [← hwanted]
    exact hafter.left (by rw [line_stopped hreading, hends])
  | taskRuns ask =>
    intro hdue hwriter
    by_contra hfull
    obtain ⟨⟨outcome, rest⟩, hfound⟩ := Option.isSome_iff_exists.mp hdue
    have hlost : s.after sizes (.taskRuns ask) = { s with tasks := rest } := by
      unfold Serve.after
      dsimp only
      unfold Serve.runTask
      rw [hfound]
      dsimp only
      rw [if_neg (by rw [hwriter]; exact Bool.false_ne_true)]
      exact if_neg hfull
    rw [hlost] at hafter
    have hbefore := h.answered hwriter ask
    have hnow : s.put.count ask + (rest.map Task.ask).count ask + s.putting.count ask =
      s.asked.count ask := hafter.answered hwriter ask
    rw [due_count hfound ask, List.count_singleton_self] at hbefore
    omega
  | asks op =>
    intro hstopped hwaits
    by_contra hnot
    rw [not_or] at hnot
    have hasked : (s.after sizes (.asks op)).wanted = s.wanted ++ [s.tokens] := by
      unfold Serve.after
      dsimp only
      rw [if_neg hnot.1, if_pos (by omega)]
      dsimp only
      rw [if_pos hwaits]
    have hstays : (s.after sizes (.asks op)).isStopped = true := by
      unfold Serve.after
      dsimp only
      split_ifs <;> exact hstopped
    have hempty := hafter.left hstays
    rw [hasked] at hempty
    exact absurd hempty (by simp)
  | _ => trivial

lemma AllServed.head {steps : List Step} (h : AllServed sizes s steps) : Served s := by
  cases steps with
  | nil => exact h
  | cons step steps => exact h.1

lemma allServed_iff_allHeed (hbooks : s.books.Balanced) (hsent : Sent s)
    (hleft : s.isStopped = true → s.wanted = []) (steps : List Step) :
    AllServed sizes s steps ↔ AllHeed sizes s steps := by
  have hserved := served_of hbooks hsent hleft
  induction steps generalizing s with
  | nil => exact iff_of_true hserved trivial
  | cons step steps ih =>
    constructor
    · intro h
      have hheeds := heeds_of_served hserved h.2.head
      exact ⟨hheeds, (ih (after_balanced hbooks hheeds) (sent_after hsent step)
        (left_after hleft hheeds) h.2.head).mp h.2⟩
    · intro h
      have hbooks' := after_balanced hbooks h.1
      have hleft' := left_after hleft h.1
      have hsent' : Sent (s.after sizes step) := sent_after hsent step
      exact ⟨hserved, (ih hbooks' hsent' hleft' (served_of hbooks' hsent' hleft')).mpr h.2⟩

lemma sent_start : Sent .start := by
  refine ⟨fun id token hid => ?_, fun id token hid => ?_, fun ended hended => nomatch hended⟩
  · have hget : (∅ : Map Nat Nat)[id]? = some token := hid
    simp at hget
  · have hget : (∅ : Map Nat Nat)[id]? = some token := hid
    simp at hget

/-- Every request is answered once, each line ends the operation that was given its id, and nothing
waits for the host once it is no longer read: in exactly the runs in which a task of the runtime
finds room for the result it puts, and in which the reader stops while the protocol waits for
nothing, which then asks for nothing that it would wait for. -/
theorem allServed_iff (sizes : Sizes) (steps : List Step) :
    AllServed sizes .start steps ↔ AllHeed sizes .start steps :=
  allServed_iff_allHeed (fun _ _ => rfl) sent_start (fun h => nomatch h) steps

lemma AllServed.last {steps : List Step} (h : AllServed sizes s steps) :
    Served (steps.foldl (Serve.after sizes) s) := by
  induction steps generalizing s with
  | nil => exact h
  | cons step steps ih => exact ih h.2

def Sample.busyCall : List Step :=
  [.reported (List.replicate 64 .null)] ++ List.replicate 64 .pumpOffers ++
    [.line (some (.request 1 (.serviceCall .null))), .takesCall,
      .answers ⟨.service, 1⟩ (.done none), .taskRuns ⟨.service, 1⟩]

set_option maxRecDepth 4000 in
/-- The task that has the result panics, and the host is never answered. -/
theorem not_allServed_busyCall : ¬ AllServed .own .start Sample.busyCall := by
  intro h
  have hanswered := h.last.answered rfl ⟨.service, 1⟩
  exact absurd hanswered (by decide)

end Irori.Process

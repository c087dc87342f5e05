import Irori.Process.Ring

/-!
# Waiting for each other

A host that waits to write to a process, whose thread that reads waits for room to put a result,
while its thread that writes waits for the host to read: then nothing ever goes on. This happens in
exactly the runs in which the last of the three begins to wait while the others do.
-/

namespace Irori.Process

def Host.isDelivering : Host → Bool
  | .delivering _ _ => true
  | _ => false

def Host.isSelecting : Host → Bool
  | .selecting => true
  | _ => false

def Writer.isWriting : Writer → Bool
  | .writing _ => true
  | _ => false

def Serve.isPutting (s : Serve) : Bool :=
  match s.reader with
  | .putting _ _ => true
  | _ => false

def Serve.puts (s : Serve) : Step → Bool
  | .taskRuns ask => (Serve.due ask s.tasks).isSome
  | .pumpSends =>
    match s.pump with
    | .sending _ => true
    | _ => false
  | .pumpOffers =>
    match s.pump, s.ops, s.reports with
    | .selecting, [], _ :: _ => true
    | .offering, _, _ :: _ => true
    | _, _, _ => false
  | _ => false

section

variable (sizes : RingSizes)

/-- The process doesn't go on: its reader waits to put a result, and its writer has a line for a pipe
that is full. -/
structure Ring.Held (r : Ring) : Prop where
  putting : r.serve.isPutting = true
  writing : r.serve.writer.isWriting = true
  stdout : sizes.stdout ≤ r.stdout.length

structure Stuck (r : Ring) : Prop where
  delivering : r.host.isDelivering = true
  stdin : sizes.stdin ≤ r.stdin.length
  held : r.Held sizes
  out : sizes.serve.out ≤ r.serve.out.length

def NeverStuck (r : Ring) : List Turn → Prop
  | [] => ¬ Stuck sizes r
  | turn :: turns => ¬ Stuck sizes r ∧ NeverStuck (r.after sizes turn) turns

/-- The host takes something up to deliver unless its pipe is full, the process is held and its queue
is full; and where the host waits with its pipe full and the process is held, nothing in the process
takes the last place of its queue. -/
def Clears (r : Ring) : Turn → Prop
  | .hostTakes => r.host.isSelecting = true → r.next.isSome = true →
      sizes.stdin ≤ r.stdin.length → r.Held sizes → r.serve.out.length < sizes.serve.out
  | .hostStops => r.host.isSelecting = true →
      sizes.stdin ≤ r.stdin.length → r.Held sizes → r.serve.out.length < sizes.serve.out
  | .inner step => r.host.isDelivering = true →
      sizes.stdin ≤ r.stdin.length → r.Held sizes → r.serve.puts step = true →
        r.serve.out.length + 1 ≠ sizes.serve.out
  | _ => True

def AllClear (r : Ring) : List Turn → Prop
  | [] => True
  | turn :: turns => Clears sizes r turn ∧ AllClear (r.after sizes turn) turns

structure Within (r : Ring) : Prop where
  stdin : r.stdin.length ≤ sizes.stdin
  stdout : r.stdout.length ≤ sizes.stdout
  out : r.serve.out.length ≤ sizes.serve.out

end

section

variable {sizes : Sizes} {s : Serve} {step : Step}

lemma enqueueJson_within (h : s.out.length ≤ sizes.out) (ask : Ask) (outcome : Outcome) :
    (s.enqueueJson sizes ask outcome).out.length ≤ sizes.out := by
  unfold Serve.enqueueJson
  split_ifs with hgone hroom
  · exact h
  · have hless : s.out.length < sizes.out := of_decide_eq_true hroom
    show (s.out ++ [_]).length ≤ sizes.out
    rw [List.length_append, List.length_singleton]
    exact hless
  · exact h

lemma handOver_within (h : s.out.length ≤ sizes.out) (ask : Ask) (request : Request)
    (isFull : Bool) {push : Serve → Serve} (hpush : ∀ s : Serve, (push s).out = s.out) :
    (s.handOver sizes ask request isFull push).out.length ≤ sizes.out := by
  unfold Serve.handOver
  split_ifs
  · exact h
  · exact enqueueJson_within (s := { s with asked := s.asked ++ [ask] }) h _ _
  · rw [hpush]
    exact h

lemma line_within (h : s.out.length ≤ sizes.out) (line : Option ToExt) :
    (s.after sizes (.line line)).out.length ≤ sizes.out := by
  unfold Serve.after
  dsimp only
  split_ifs with hreading
  · cases line with
    | none => exact h
    | some line =>
      cases line with
      | reply id error =>
        show (s.completeReply id error).out.length ≤ sizes.out
        unfold Serve.completeReply
        split <;> exact h
      | loaded id value error =>
        show (s.completeLoad id value error).out.length ≤ sizes.out
        unfold Serve.completeLoad
        split <;> exact h
      | request id request =>
        cases request with
        | serviceCall call => exact handOver_within h _ _ _ fun _ => rfl
        | actionCall actionId stop way fields => exact handOver_within h _ _ _ fun _ => rfl
        | unpairDevice uniqueId force => exact handOver_within h _ _ _ fun _ => rfl
        | cameraPicture uniqueId => exact handOver_within h _ _ _ fun _ => rfl
      | stop => exact h
      | other => exact h
  · exact h

inductive Moved (sizes : Sizes) (s : Serve) (step : Step) (s' : Serve) : Prop
  | nothing (reader : s'.reader = s.reader) (writer : s'.writer = s.writer) (out : s'.out = s.out)
      (idle : s.puts step = true → s.hasRoom sizes = true → s.writer.isGone = true)
  | puts (line : FromExt) (putting : s.puts step = true) (room : s.hasRoom sizes = true)
      (reader : s'.reader = s.reader) (writer : s'.writer = s.writer)
      (out : s'.out = s.out ++ [line])
  | takes (line : FromExt) (idle : s.puts step = false) (waits : s.writer = .idle)
      (reader : s'.reader = s.reader) (out : s.out = line :: s'.out)
  | goesOn (idle : s.puts step = false) (waited : s.isPutting = true)
      (reader : s'.reader = .reading) (writer : s'.writer = s.writer)
      (room : s.writer.isGone = true ∨ s.hasRoom sizes = true)
      (out : s'.out.length ≤ max s.out.length sizes.out)

lemma moved_nothing (h : s.puts step = false) : Moved sizes s step s :=
  .nothing rfl rfl rfl fun hputs => absurd (h.symm.trans hputs) Bool.false_ne_true

lemma moved_encodeOp (hputs : s.puts step = false) (ops : List (Nat × Op)) (token : Nat) (op : Op) :
    Moved sizes s step ({ s with ops }.encodeOp token op) := by
  have hidle : s.puts step = true → s.hasRoom sizes = true → s.writer.isGone = true :=
    fun h => absurd (hputs.symm.trans h) Bool.false_ne_true
  cases op <;> exact .nothing rfl rfl rfl hidle

lemma moved_offerReport (hputs : s.puts step = true ↔ s.reports ≠ []) :
    Moved sizes s step (s.offerReport sizes) := by
  unfold Serve.offerReport
  split
  · next hreports =>
    exact .nothing rfl rfl rfl fun h => absurd hreports (hputs.mp h)
  · next report reports hreports =>
    have hput : s.puts step = true := hputs.mpr (by rw [hreports]; exact List.cons_ne_nil _ _)
    split_ifs with hgone hroom
    · exact .nothing rfl rfl rfl fun _ _ => hgone
    · exact .puts _ hput hroom rfl rfl rfl
    · exact .nothing rfl rfl rfl fun _ h => absurd h hroom

lemma moved_runTask (ask : Ask) : Moved sizes s (.taskRuns ask) (s.runTask sizes ask) := by
  unfold Serve.runTask
  split
  · next outcome tasks hdue =>
    have hput : s.puts (.taskRuns ask) = true := by
      show (Serve.due ask s.tasks).isSome = true
      rw [hdue]
      rfl
    dsimp only
    split_ifs with hgone hroom
    · exact .nothing rfl rfl rfl fun _ _ => hgone
    · exact .puts _ hput hroom rfl rfl rfl
    · exact .nothing rfl rfl rfl fun _ h => absurd h hroom
  · next hdue =>
    refine moved_nothing ?_
    show (Serve.due ask s.tasks).isSome = false
    rw [hdue]
    rfl

lemma moved_after (hinner : step.isInner = true) : Moved sizes s step (s.after sizes step) := by
  have hquiet : s.puts step = false → s.puts step = true → s.hasRoom sizes = true →
      s.writer.isGone = true := fun h h' => absurd (h.symm.trans h') Bool.false_ne_true
  unfold Serve.after
  cases step with
  | line line => cases hinner
  | readerPuts =>
    dsimp only
    cases hreader : s.reader with
    | reading => exact moved_nothing rfl
    | stopped => exact moved_nothing rfl
    | putting ask outcome =>
      have hwaited : s.isPutting = true := by
        unfold Serve.isPutting
        rw [hreader]
      dsimp only
      split_ifs with hgone hroom
      · exact .goesOn rfl hwaited rfl rfl (.inl hgone) (le_max_left _ _)
      · refine .goesOn rfl hwaited rfl rfl (.inr hroom) (le_max_of_le_right ?_)
        have hless : s.out.length < sizes.out := of_decide_eq_true hroom
        show (s.out ++ [_]).length ≤ sizes.out
        rw [List.length_append, List.length_singleton]
        exact hless
      · exact moved_nothing rfl
  | takesCall =>
    dsimp only
    split <;> exact .nothing rfl rfl rfl (hquiet rfl)
  | takesAction =>
    dsimp only
    split <;> exact .nothing rfl rfl rfl (hquiet rfl)
  | answers ask outcome =>
    dsimp only
    split_ifs <;> exact .nothing rfl rfl rfl (hquiet rfl)
  | drops ask =>
    dsimp only
    split_ifs <;> exact .nothing rfl rfl rfl (hquiet rfl)
  | stopsListening => exact .nothing rfl rfl rfl (hquiet rfl)
  | taskRuns ask => exact moved_runTask ask
  | asks op =>
    dsimp only
    split_ifs <;> exact .nothing rfl rfl rfl (hquiet rfl)
  | givesUp token => exact .nothing rfl rfl rfl (hquiet rfl)
  | reported reports => exact .nothing rfl rfl rfl (hquiet rfl)
  | pumpTakes =>
    dsimp only
    split
    · exact moved_encodeOp rfl _ _ _
    · exact moved_encodeOp rfl _ _ _
    · exact moved_nothing rfl
  | pumpSends =>
    dsimp only
    split
    · next line hpump =>
      have hput : s.puts .pumpSends = true := by
        unfold Serve.puts
        rw [hpump]
      split_ifs with hgone hroom
      · exact .nothing rfl rfl rfl fun _ _ => hgone
      · exact .puts _ hput hroom rfl rfl rfl
      · exact .nothing rfl rfl rfl fun _ h => absurd h hroom
    · next hpump =>
      refine moved_nothing ?_
      dsimp only [Serve.puts]
      split
      · next line h => exact absurd h (hpump line)
      · rfl
  | pumpOffers =>
    dsimp only
    split
    · next hpump hops =>
      refine moved_offerReport ?_
      unfold Serve.puts
      rw [hpump, hops]
      cases s.reports <;> simp
    · next hpump =>
      refine moved_offerReport ?_
      unfold Serve.puts
      rw [hpump]
      cases s.reports <;> simp
    · next hoffering hselecting =>
      refine moved_nothing ?_
      dsimp only [Serve.puts]
      split
      · next hpump hops _ => exact absurd hops (hselecting hpump)
      · next hpump _ => exact absurd hpump hoffering
      · rfl
  | pumpHasRoom =>
    dsimp only
    split
    · split_ifs <;> exact .nothing rfl rfl rfl (hquiet rfl)
    · exact moved_nothing rfl
  | writerTakes =>
    dsimp only
    split
    · next line out hwriter hout => exact .takes line rfl hwriter rfl hout
    · exact moved_nothing rfl
  | writerWrites => cases hinner
  | writerFails => cases hinner

end

variable {sizes : RingSizes} {r : Ring}

lemma movedIn (r : Ring) {step : Step} (hinner : step.isInner = true) :
    Moved sizes.serve r.serve step (r.serve.after sizes.serve step) :=
  moved_after hinner

lemma next_same {line : ToExt} {r' : Ring} (h : r.next = some (line, r')) :
    r'.host = r.host ∧ r'.stdin = r.stdin ∧ r'.stdout = r.stdout ∧ r'.serve = r.serve := by
  unfold Ring.next at h
  split at h
  · cases h
    exact ⟨rfl, rfl, rfl, rfl⟩
  · cases h
    exact ⟨rfl, rfl, rfl, rfl⟩
  · cases h
    exact ⟨rfl, rfl, rfl, rfl⟩
  · cases h

lemma read_cases (r : Ring) (reply : Option ToExt) (isStopping : Bool) :
    r.read reply isStopping = r ∨ (r.read reply isStopping).stdin = r.stdin ∧
      (r.read reply isStopping).serve = r.serve ∧
      ∃ line, r.stdout = line :: (r.read reply isStopping).stdout := by
  unfold Ring.read
  split
  · next line stdout hstdout =>
    cases reply with
    | none => exact .inr ⟨rfl, rfl, line, hstdout⟩
    | some reply => exact .inr ⟨rfl, rfl, line, hstdout⟩
  · exact .inl rfl

lemma read_within (h : Within sizes r) (reply : Option ToExt) (isStopping : Bool) :
    Within sizes (r.read reply isStopping) := by
  rcases read_cases r reply isStopping with hsame | ⟨hstdin, hserve, line, hstdout⟩
  · rw [hsame]
    exact h
  · have hlength := h.stdout
    rw [hstdout, List.length_cons] at hlength
    exact ⟨by rw [hstdin]; exact h.stdin, by omega, by rw [hserve]; exact h.out⟩

lemma read_notStuck (h : Within sizes r) (hstuck : ¬ Stuck sizes r) (reply : Option ToExt)
    (isStopping : Bool) : ¬ Stuck sizes (r.read reply isStopping) := by
  rcases read_cases r reply isStopping with hsame | ⟨_, _, line, hstdout⟩
  · rw [hsame]
    exact hstuck
  · have hlength := h.stdout
    rw [hstdout, List.length_cons] at hlength
    intro hafter
    have hfull := hafter.held.stdout
    omega

lemma after_within (h : Within sizes r) (turn : Turn) : Within sizes (r.after sizes turn) := by
  unfold Ring.after
  cases turn with
  | coreCalls request =>
    dsimp only
    split_ifs
    · exact ⟨h.stdin, h.stdout, h.out⟩
    · exact h
  | coreActs request =>
    dsimp only
    split_ifs
    · exact ⟨h.stdin, h.stdout, h.out⟩
    · exact h
  | engineHas line => exact ⟨h.stdin, h.stdout, h.out⟩
  | hostTakes =>
    dsimp only
    split
    · next line r' _ hnext =>
      obtain ⟨_, hstdin, hstdout, hserve⟩ := next_same hnext
      refine ⟨?_, ?_, ?_⟩
      · show r'.stdin.length ≤ sizes.stdin
        rw [hstdin]
        exact h.stdin
      · show r'.stdout.length ≤ sizes.stdout
        rw [hstdout]
        exact h.stdout
      · show r'.serve.out.length ≤ sizes.serve.out
        rw [hserve]
        exact h.out
    · exact h
  | hostStops =>
    dsimp only
    split
    · exact ⟨h.stdin, h.stdout, h.out⟩
    · exact h
  | hostReads reply =>
    dsimp only
    split
    · exact read_within h reply false
    · exact read_within h reply true
    · exact h
  | hostDelivers =>
    dsimp only
    split
    · next line isStopping hhost =>
      by_cases hroom : r.stdin.length < sizes.stdin
      · rw [if_pos hroom]
        refine ⟨?_, h.stdout, h.out⟩
        show (r.stdin ++ [line]).length ≤ sizes.stdin
        rw [List.length_append, List.length_singleton]
        exact hroom
      · rw [if_neg hroom]
        exact h
    · exact h
  | graceEnds =>
    dsimp only
    split
    · exact ⟨h.stdin, h.stdout, h.out⟩
    · exact h
  | readerReads =>
    dsimp only
    split_ifs
    · split
      · next line stdin hstdin =>
        have hlength := h.stdin
        rw [hstdin, List.length_cons] at hlength
        exact ⟨Nat.le_of_succ_le hlength, h.stdout, line_within h.out _⟩
      · exact ⟨h.stdin, h.stdout, line_within h.out _⟩
      · exact h
    · exact h
  | writerWrites =>
    dsimp only
    split
    · exact ⟨h.stdin, h.stdout, Nat.zero_le _⟩
    · next line hwriter hhost =>
      split_ifs with hroom
      · refine ⟨h.stdin, ?_, ?_⟩
        · show (r.stdout ++ [line]).length ≤ sizes.stdout
          rw [List.length_append, List.length_singleton]
          exact hroom
        · show (r.serve.after sizes.serve .writerWrites).out.length ≤ sizes.serve.out
          unfold Serve.after
          rw [hwriter]
          exact h.out
      · exact h
    · exact h
  | inner step =>
    dsimp only
    split_ifs with hinner
    · refine ⟨h.stdin, h.stdout, ?_⟩
      have hout := h.out
      show (r.serve.after sizes.serve step).out.length ≤ sizes.serve.out
      rcases movedIn r hinner with
        ⟨_, _, hsame, _⟩ | ⟨line, _, hroom, _, _, hput⟩ | ⟨line, _, _, _, htaken⟩ | ⟨_, _, _, _, _, hmost⟩
      · rw [hsame]
        exact hout
      · have hless : r.serve.out.length < sizes.serve.out := of_decide_eq_true hroom
        rw [hput, List.length_append, List.length_singleton]
        exact hless
      · rw [htaken, List.length_cons] at hout
        omega
      · omega
    · exact h

lemma notGone_of_writing {writer : Writer} (h : writer.isWriting = true) : writer.isGone = false := by
  cases writer with
  | writing line => rfl
  | idle => rfl
  | gone => cases h

lemma inner_of_puts {s : Serve} {step : Step} (h : s.puts step = true) : step.isInner = true := by
  cases step with
  | line line => cases h
  | writerWrites => cases h
  | writerFails => cases h
  | _ => rfl

lemma inner_after {step : Step} (hinner : step.isInner = true) :
    r.after sizes (.inner step) = { r with serve := r.serve.after sizes.serve step } :=
  if_pos hinner

lemma stuck_of_not_clears {turn : Turn} (h : ¬ Clears sizes r turn) :
    Stuck sizes (r.after sizes turn) := by
  cases turn with
  | hostTakes =>
    simp only [Clears, Classical.not_imp, not_lt] at h
    obtain ⟨hselecting, hnext, hstdin, hheld, hout⟩ := h
    obtain ⟨⟨line, r'⟩, hfound⟩ := Option.isSome_iff_exists.mp hnext
    obtain ⟨_, hstdin', hstdout', hserve'⟩ := next_same hfound
    have hafter : r.after sizes .hostTakes = { r' with host := .delivering line false } := by
      unfold Ring.after
      cases hhost : r.host with
      | selecting => dsimp only; rw [hfound]
      | _ =>
        rw [hhost] at hselecting
        cases hselecting
    rw [hafter]
    refine ⟨rfl, ?_, ⟨?_, ?_, ?_⟩, ?_⟩
    · show sizes.stdin ≤ r'.stdin.length
      rw [hstdin']
      exact hstdin
    · show r'.serve.isPutting = true
      rw [hserve']
      exact hheld.putting
    · show r'.serve.writer.isWriting = true
      rw [hserve']
      exact hheld.writing
    · show sizes.stdout ≤ r'.stdout.length
      rw [hstdout']
      exact hheld.stdout
    · show sizes.serve.out ≤ r'.serve.out.length
      rw [hserve']
      exact hout
  | hostStops =>
    simp only [Clears, Classical.not_imp, not_lt] at h
    obtain ⟨hselecting, hstdin, hheld, hout⟩ := h
    have hafter : r.after sizes .hostStops = { r with host := .delivering .stop true } := by
      unfold Ring.after
      cases hhost : r.host with
      | selecting => rfl
      | _ =>
        rw [hhost] at hselecting
        cases hselecting
    rw [hafter]
    exact ⟨rfl, hstdin, ⟨hheld.putting, hheld.writing, hheld.stdout⟩, hout⟩
  | inner step =>
    simp only [Clears, Classical.not_imp, not_not] at h
    obtain ⟨hdelivering, hstdin, hheld, hputs, hlast⟩ := h
    have hnot : ¬ r.serve.writer.isGone = true := by
      rw [notGone_of_writing hheld.writing]
      exact Bool.false_ne_true
    have hroom : r.serve.hasRoom sizes.serve = true := decide_eq_true (by omega)
    rw [inner_after (inner_of_puts hputs)]
    rcases movedIn r (inner_of_puts hputs) with
      ⟨_, _, _, hidle⟩ | ⟨line, _, _, hreader, hwriter, hout⟩ | ⟨_, hidle, _, _, _⟩ | ⟨hidle, _, _, _, _⟩
    · exact absurd (hidle hputs hroom) hnot
    · refine ⟨hdelivering, hstdin, ⟨?_, ?_, hheld.stdout⟩, ?_⟩
      · show (r.serve.after sizes.serve step).isPutting = true
        unfold Serve.isPutting
        rw [hreader]
        exact hheld.putting
      · show (r.serve.after sizes.serve step).writer.isWriting = true
        rw [hwriter]
        exact hheld.writing
      · show sizes.serve.out ≤ (r.serve.after sizes.serve step).out.length
        rw [hout, List.length_append, List.length_singleton]
        exact hlast.ge
    · exact absurd (hidle.symm.trans hputs) Bool.false_ne_true
    · exact absurd (hidle.symm.trans hputs) Bool.false_ne_true
  | _ => exact absurd trivial h

lemma Stuck.congr {r' : Ring} (h : Stuck sizes r') (hhost : r'.host = r.host)
    (hstdin : r'.stdin = r.stdin) (hserve : r'.serve = r.serve) (hstdout : r'.stdout = r.stdout) :
    Stuck sizes r := by
  refine ⟨?_, ?_, ⟨?_, ?_, ?_⟩, ?_⟩
  · rw [← hhost]
    exact h.delivering
  · rw [← hstdin]
    exact h.stdin
  · rw [← hserve]
    exact h.held.putting
  · rw [← hserve]
    exact h.held.writing
  · rw [← hstdout]
    exact h.held.stdout
  · rw [← hserve]
    exact h.out

lemma inner_notStuck (h : Within sizes r) (hnot : ¬ Stuck sizes r) {step : Step}
    (hinner : step.isInner = true) (hclears : Clears sizes r (.inner step)) :
    ¬ Stuck sizes { r with serve := r.serve.after sizes.serve step } := by
  intro hafter
  have hputting : (r.serve.after sizes.serve step).isPutting = true := hafter.held.putting
  have hwriting : (r.serve.after sizes.serve step).writer.isWriting = true := hafter.held.writing
  have hfull : sizes.serve.out ≤ (r.serve.after sizes.serve step).out.length := hafter.out
  have hwithin := h.out
  unfold Serve.isPutting at hputting
  rcases movedIn r hinner with
    ⟨hreader, hwriter, hout, _⟩ | ⟨line, hputs, hroom, hreader, hwriter, hout⟩ |
      ⟨line, _, _, _, hout⟩ | ⟨_, _, hreader, _, _, _⟩
  · rw [hreader] at hputting
    rw [hwriter] at hwriting
    rw [hout] at hfull
    exact hnot ⟨hafter.delivering, hafter.stdin, ⟨hputting, hwriting, hafter.held.stdout⟩, hfull⟩
  · rw [hreader] at hputting
    rw [hwriter] at hwriting
    rw [hout, List.length_append, List.length_singleton] at hfull
    have hless : r.serve.out.length < sizes.serve.out := of_decide_eq_true hroom
    exact hclears hafter.delivering hafter.stdin ⟨hputting, hwriting, hafter.held.stdout⟩ hputs
      (by omega)
  · rw [hout, List.length_cons] at hwithin
    omega
  · rw [hreader] at hputting
    cases hputting

lemma notStuck_after (h : Within sizes r) (hnot : ¬ Stuck sizes r) {turn : Turn}
    (hclears : Clears sizes r turn) : ¬ Stuck sizes (r.after sizes turn) := by
  intro hafter
  unfold Ring.after at hafter
  cases turn with
  | coreCalls request =>
    dsimp only at hafter
    split_ifs at hafter
    · exact hnot (hafter.congr rfl rfl rfl rfl)
    · exact hnot hafter
  | coreActs request =>
    dsimp only at hafter
    split_ifs at hafter
    · exact hnot (hafter.congr rfl rfl rfl rfl)
    · exact hnot hafter
  | engineHas line => exact hnot (hafter.congr rfl rfl rfl rfl)
  | hostTakes =>
    dsimp only at hafter
    split at hafter
    · next line r' hhost hnext =>
      obtain ⟨_, hstdin, hstdout, hserve⟩ := next_same hnext
      have hfull : sizes.serve.out ≤ r.serve.out.length := hserve ▸ hafter.out
      have hroom := hclears (by rw [hhost]; rfl) (by rw [hnext]; rfl) (hstdin ▸ hafter.stdin)
        ⟨hserve ▸ hafter.held.putting, hserve ▸ hafter.held.writing, hstdout ▸ hafter.held.stdout⟩
      omega
    · exact hnot hafter
  | hostStops =>
    dsimp only at hafter
    split at hafter
    · next hhost =>
      have hfull : sizes.serve.out ≤ r.serve.out.length := hafter.out
      have hroom := hclears (by rw [hhost]; rfl) hafter.stdin
        ⟨hafter.held.putting, hafter.held.writing, hafter.held.stdout⟩
      omega
    · exact hnot hafter
  | hostReads reply =>
    dsimp only at hafter
    split at hafter
    · exact read_notStuck h hnot reply false hafter
    · exact read_notStuck h hnot reply true hafter
    · exact hnot hafter
  | hostDelivers =>
    dsimp only at hafter
    split at hafter
    · next line isStopping hhost =>
      by_cases hroom : r.stdin.length < sizes.stdin
      · rw [if_pos hroom] at hafter
        have hdelivering := hafter.delivering
        dsimp only at hdelivering
        cases isStopping <;> cases hdelivering
      · rw [if_neg hroom] at hafter
        exact hnot hafter
    · exact hnot hafter
  | graceEnds =>
    dsimp only at hafter
    split at hafter
    · exact nomatch hafter.delivering
    · exact hnot hafter
  | readerReads =>
    dsimp only at hafter
    split_ifs at hafter
    · split at hafter
      · next line stdin hstdin =>
        have hwithin := h.stdin
        have hfull : sizes.stdin ≤ stdin.length := hafter.stdin
        rw [hstdin, List.length_cons] at hwithin
        omega
      · next hhost =>
        have hdelivering := hafter.delivering
        rw [hhost] at hdelivering
        cases hdelivering
      · exact hnot hafter
    · exact hnot hafter
  | writerWrites =>
    dsimp only at hafter
    split at hafter
    · exact nomatch hafter.held.writing
    · next line hwriter _ =>
      split_ifs at hafter
      · have hwriting : (r.serve.after sizes.serve .writerWrites).writer.isWriting = true :=
          hafter.held.writing
        unfold Serve.after at hwriting
        rw [hwriter] at hwriting
        cases hwriting
      · exact hnot hafter
    · exact hnot hafter
  | inner step =>
    dsimp only at hafter
    split_ifs at hafter with hinner
    · exact inner_notStuck h hnot hinner hclears hafter
    · exact hnot hafter

lemma NeverStuck.head {turns : List Turn} (h : NeverStuck sizes r turns) : ¬ Stuck sizes r := by
  cases turns with
  | nil => exact h
  | cons turn turns => exact h.1

lemma neverStuck_iff_allClear (h : Within sizes r) (hnot : ¬ Stuck sizes r) (turns : List Turn) :
    NeverStuck sizes r turns ↔ AllClear sizes r turns := by
  induction turns generalizing r with
  | nil => exact iff_of_true hnot trivial
  | cons turn turns ih =>
    constructor
    · intro hnever
      have hclears : Clears sizes r turn := by
        by_contra hcloses
        exact hnever.2.head (stuck_of_not_clears hcloses)
      exact ⟨hclears, (ih (after_within h turn) hnever.2.head).mp hnever.2⟩
    · intro hclear
      have hnot' := notStuck_after h hnot hclear.1
      exact ⟨hnot, (ih (after_within h turn) hnot').mpr hclear.2⟩

lemma within_start : Within sizes .start := ⟨Nat.zero_le _, Nat.zero_le _, Nat.zero_le _⟩

/-- The host and a process never wait for each other in exactly the runs in which the host takes
nothing up into a full pipe while the process is held and its queue full, and in which, while the
host waits with its pipe full and the process is held, nothing takes the last place of that queue. -/
theorem neverStuck_iff (sizes : RingSizes) (turns : List Turn) :
    NeverStuck sizes .start turns ↔ AllClear sizes .start turns :=
  neverStuck_iff_allClear within_start (fun h => nomatch h.delivering) turns

lemma NeverStuck.last {turns : List Turn} (h : NeverStuck sizes r turns) :
    ¬ Stuck sizes (turns.foldl (Ring.after sizes) r) := by
  induction turns generalizing r with
  | nil => exact h
  | cons turn turns ih => exact ih h.2

def Sample.ring : RingSizes := ⟨.own, callsCapacity, callsCapacity, 16, 16⟩

def Sample.sends : List Turn := [.coreCalls (.serviceCall .null), .hostTakes, .hostDelivers]

/-- A protocol is handed as many calls as it has room for, and reports until its queue and the pipe
are full. Then as many calls come as the other pipe has room for, and two more. -/
def Sample.burst : List Turn :=
  (List.replicate 64 (Sample.sends ++ [.readerReads])).flatten ++
    [.inner (.reported (List.replicate 81 .null))] ++
    (List.replicate 16 [.inner .pumpOffers, .inner .writerTakes, .writerWrites]).flatten ++
    [.inner .pumpOffers, .inner .writerTakes] ++ List.replicate 64 (.inner .pumpOffers) ++
    Sample.sends ++ [.readerReads] ++ (List.replicate 16 Sample.sends).flatten ++
    [.coreCalls (.serviceCall .null), .hostTakes]

set_option maxRecDepth 8000 in
theorem not_neverStuck_burst : ¬ NeverStuck Sample.ring .start Sample.burst := by
  intro h
  exact h.last ⟨by decide, by decide,
    ⟨by decide, by decide, by decide⟩, by decide⟩

end Irori.Process

import Irori.Proofs.Telling

/-!
# What chats take up

In every run each conversation keeps to its limits and the whole to its own, the newest is what is
kept, and no conversation is stored at the expense of another before the whole is full.
-/

namespace Irori.Assistant
open Irori.Core (Reach)

lemma withinLimits_suffix (turns : List Turn) : withinLimits turns <:+ turns := by
  induction turns with
  | nil => exact List.suffix_rfl
  | cons turn rest ih =>
    unfold withinLimits
    split
    · exact ih.trans (List.suffix_cons turn rest)
    · exact List.suffix_rfl

/-- What a conversation may hold. -/
def Capped (turns : List Turn) : Prop := turns.length ≤ limitMessages ∧ byteLen turns ≤ limitBytes

lemma withinLimits_capped (turns : List Turn) : Capped (withinLimits turns) := by
  induction turns with
  | nil => exact ⟨Nat.zero_le _, Nat.zero_le _⟩
  | cons turn rest ih =>
    unfold withinLimits
    split
    · exact ih
    · next hfits =>
      rw [Bool.or_eq_true, decide_eq_true_eq, decide_eq_true_eq, not_or] at hfits
      exact ⟨Nat.le_of_not_lt hfits.1, Nat.le_of_not_lt hfits.2⟩

lemma foldl_appendCapped_suffix (said turns : List Turn) :
    said.foldl appendCapped turns <:+ turns ++ said.map Turn.cut := by
  induction said generalizing turns with
  | nil => rw [List.map_nil, List.append_nil]; exact List.suffix_rfl
  | cons turn said ih =>
    obtain ⟨dropped, hdropped⟩ := withinLimits_suffix (turns ++ [turn.cut])
    refine (ih _).trans ⟨dropped, ?_⟩
    rw [← List.append_assoc, appendCapped, hdropped, List.append_assoc]
    rfl

lemma foldl_appendCapped_capped {turns : List Turn} (h : Capped turns) (said : List Turn) :
    Capped (said.foldl appendCapped turns) := by
  induction said generalizing turns with
  | nil => exact h
  | cons turn said ih => exact ih (withinLimits_capped _)

def inScope (messages : List Message) (scope : String) : List Message :=
  messages.filter fun message => message.scope == scope

def total (messages : List Message) : ℕ := (messages.map fun message => message.body.length).sum

/-- Every conversation is within its limits, and its rows are in the order they were said in. -/
structure Trimmed (messages : List Message) : Prop where
  capped : ∀ scope, Capped ((inScope messages scope).map Message.turn)
  ordered : ∀ scope, (inScope messages scope).Pairwise fun a b => a.seq < b.seq

lemma byteLen_sublist {few many : List Turn} (h : few.Sublist many) : byteLen few ≤ byteLen many :=
  (h.map _).sum_le_sum fun _ _ => Nat.zero_le _

lemma total_sublist {few many : List Message} (h : few.Sublist many) : total few ≤ total many :=
  (h.map _).sum_le_sum fun _ _ => Nat.zero_le _

lemma Trimmed.sublist {few many : List Message} (h : Trimmed many) (hsub : few.Sublist many) :
    Trimmed few where
  capped scope :=
    have hturns := (hsub.filter fun message => message.scope == scope).map Message.turn
    ⟨hturns.length_le.trans (h.capped scope).1, (byteLen_sublist hturns).trans (h.capped scope).2⟩
  ordered scope := (h.ordered scope).sublist (hsub.filter _)

/-! ### The whole -/

/-- A search that keeps the best so far finds one of what it looks through. -/
lemma foldl_best {α : Type} {step : Option α → α → Option α} (hfirst : ∀ a, step none a = some a)
    (hnext : ∀ best a, step (some best) a = some a ∨ step (some best) a = some best)
    {l : List α} (h : l ≠ []) : ∃ a ∈ l, l.foldl step none = some a := by
  have hfound : ∀ (l : List α) (best : α),
      ∃ a, l.foldl step (some best) = some a ∧ (a ∈ l ∨ a = best) := by
    intro l
    induction l with
    | nil => exact fun best => ⟨best, rfl, .inr rfl⟩
    | cons first l ih =>
      intro best
      rw [List.foldl_cons]
      rcases hnext best first with hstep | hstep <;> rw [hstep]
      · obtain ⟨a, ha, hin⟩ := ih first
        exact ⟨a, ha, .inl (List.mem_cons.mpr hin.symm)⟩
      · obtain ⟨a, ha, hin⟩ := ih best
        exact ⟨a, ha, hin.imp_left (List.mem_cons_of_mem _)⟩
  obtain ⟨first, l, rfl⟩ := List.exists_cons_of_ne_nil h
  obtain ⟨a, ha, hin⟩ := hfound l first
  rw [List.foldl_cons, hfirst]
  exact ⟨a, List.mem_cons.mpr hin.symm, ha⟩

lemma oldest_longest {messages : List Message} (h : messages ≠ []) :
    ∃ message ∈ messages,
      (Memory.longest messages).bind (Memory.oldest messages) = some message := by
  obtain ⟨scope, hin, hlongest⟩ : ∃ scope ∈ messages.map Message.scope,
      Memory.longest messages = some scope :=
    foldl_best (fun _ => rfl) (fun _ _ => ite_eq_or_eq _ _ _) (List.map_eq_nil_iff.not.mpr h)
  obtain ⟨said, hsaid, rfl⟩ := List.mem_map.mp hin
  have hmember : said ∈ inScope messages said.scope :=
    List.mem_filter.mpr ⟨hsaid, beq_self_eq_true _⟩
  obtain ⟨message, hin, holdest⟩ : ∃ message ∈ inScope messages said.scope,
      Memory.oldest messages said.scope = some message :=
    foldl_best (fun _ => rfl) (fun _ _ => ite_eq_or_eq _ _ _) (List.ne_nil_of_mem hmember)
  rw [hlongest]
  exact ⟨message, List.mem_of_mem_filter hin, holdest⟩

lemma trimGlobal_sublist (fuel : ℕ) (messages : List Message) :
    (Memory.trimGlobal fuel messages).Sublist messages := by
  induction fuel generalizing messages with
  | zero => exact List.Sublist.refl _
  | succ fuel ih =>
    unfold Memory.trimGlobal
    split
    · exact List.Sublist.refl _
    · split
      · exact (ih _).trans List.erase_sublist
      · exact List.Sublist.refl _

lemma trimGlobal_total {fuel : ℕ} {messages : List Message} (h : messages.length ≤ fuel) :
    total (Memory.trimGlobal fuel messages) ≤ limitGlobalBytes := by
  induction fuel generalizing messages with
  | zero =>
    rw [List.length_eq_zero_iff.mp (Nat.le_zero.mp h)]
    exact Nat.zero_le _
  | succ fuel ih =>
    unfold Memory.trimGlobal
    split
    · assumption
    · next hfull =>
      have hne : messages ≠ [] := by
        rintro rfl
        exact hfull (Nat.zero_le _)
      obtain ⟨message, hmessage, hfound⟩ := oldest_longest hne
      rw [hfound]
      refine ih ?_
      rw [List.length_erase_of_mem hmessage]
      omega

/-! ### Storing -/

section Storing

variable {memory : Memory} {scope : String} {said : List Turn} {reach : Reach} {now : ℕ}

/-- The rows of a conversation that stay, and all of every other. -/
structure Stays (memory : Memory) (scope : String) (dropped : ℕ) (kept : List Message) : Prop where
  sublist : kept.Sublist memory.messages
  rows : inScope kept scope = (inScope memory.messages scope).drop dropped
  others : ∀ other, other ≠ scope → inScope kept other = inScope memory.messages other

/-- New rows, after all there are. -/
structure Follows (scope : String) (rows : List Message) (turns : List Turn)
    (added : List Message) : Prop where
  turns : added.map Message.turn = turns
  placed : ∀ message ∈ added, message.scope = scope
  rising : added.Pairwise fun a b => a.seq < b.seq
  later : ∀ row ∈ rows, ∀ message ∈ added, row.seq < message.seq

lemma loadTurns_eq (h : Trimmed memory.messages) :
    memory.loadTurns scope = inScope memory.messages scope :=
  ((h.ordered scope).imp Nat.le_of_lt).insertionSort_eq

lemma filter_eq_drop {l : List Message} (h : l.Pairwise fun a b => a.seq < b.seq) {i : ℕ}
    {first : Message} (hi : l[i]? = some first) :
    l.filter (fun message => !decide (message.seq < first.seq)) = l.drop i := by
  induction l generalizing i with
  | nil => cases hi
  | cons a l ih =>
    obtain ⟨ha, hl⟩ := List.pairwise_cons.mp h
    cases i with
    | zero =>
      cases hi
      refine List.filter_eq_self.mpr fun message hmessage => ?_
      rcases List.mem_cons.mp hmessage with rfl | hmessage
      · simp
      · simpa using (ha message hmessage).le
    | succ i =>
      have hbefore := ha first (List.mem_of_getElem? hi)
      rw [List.filter_cons_of_neg (by simpa using hbefore)]
      exact ih hl hi

lemma stays_of (h : Trimmed memory.messages) {dropped : ℕ} {kept : List Message}
    (hsome : ∀ first, (inScope memory.messages scope)[dropped]? = some first →
      kept = memory.messages.filter fun message =>
        !(message.scope == scope && decide (message.seq < first.seq)))
    (hnone : (inScope memory.messages scope)[dropped]? = none →
      kept = memory.messages.filter fun message => message.scope != scope) :
    Stays memory scope dropped kept := by
  cases hfirst : (inScope memory.messages scope)[dropped]? with
  | none =>
    rw [hnone hfirst]
    refine ⟨List.filter_sublist, ?_, fun other hother => ?_⟩
    · rw [List.drop_eq_nil_of_le (List.getElem?_eq_none_iff.mp hfirst), inScope,
        List.filter_filter, List.filter_eq_nil_iff]
      rintro message -
      simp
    · rw [inScope, List.filter_filter]
      refine List.filter_congr fun message _ => ?_
      rw [Bool.and_eq_left_iff_imp, beq_iff_eq, bne_iff_ne]
      exact fun heq => heq ▸ hother
  | some first =>
    rw [hsome first hfirst]
    refine ⟨List.filter_sublist, ?_, fun other hother => ?_⟩
    · rw [← filter_eq_drop (h.ordered scope) hfirst, inScope, inScope, List.filter_filter,
        List.filter_filter]
      refine List.filter_congr fun message _ => ?_
      cases message.scope == scope <;> simp
    · rw [inScope, List.filter_filter]
      refine List.filter_congr fun message _ => ?_
      rw [Bool.and_eq_left_iff_imp, beq_iff_eq]
      rintro rfl
      rw [beq_eq_false_iff_ne.mpr hother, Bool.false_and, Bool.not_false]

lemma follows_of {rows : List Message} {next : ℕ} (hnext : ∀ row ∈ rows, row.seq < next)
    {turns : List Turn} {added : List Message} (hadded : added = turns.zipIdx.map fun x =>
      ⟨scope, next + x.2, x.1.role, x.1.body, now, reach⟩) : Follows scope rows turns added := by
  subst hadded
  refine ⟨?_, ?_, ?_, ?_⟩
  · rw [List.map_map]
    exact List.zipIdx_map_fst 0 turns
  · intro message hmessage
    obtain ⟨x, -, rfl⟩ := List.mem_map.mp hmessage
    rfl
  · rw [List.pairwise_map, List.pairwise_iff_getElem]
    intro i j hi hj hij
    rw [List.getElem_zipIdx, List.getElem_zipIdx]
    dsimp only
    omega
  · intro row hrow message hmessage
    obtain ⟨x, -, rfl⟩ := List.mem_map.mp hmessage
    exact (hnext row hrow).trans_le (Nat.le_add_right _ _)

lemma storeTurns_cases (h : Trimmed memory.messages) :
    ∃ (dropped : ℕ) (new : List Turn) (kept added : List Message),
      Stays memory scope dropped kept ∧ Follows scope (inScope memory.messages scope) new added ∧
        ((inScope memory.messages scope).drop dropped).map Message.turn ++ new =
          said.foldl appendCapped ((inScope memory.messages scope).map Message.turn) ∧
        new.Sublist (said.map Turn.cut) ∧
        (memory.storeTurns scope said reach now).messages =
          Memory.trimGlobal (kept ++ added).length (kept ++ added) := by
  unfold Memory.storeTurns
  dsimp only
  rw [loadTurns_eq h]
  set rows := inScope memory.messages scope with hrows
  set turns := said.foldl appendCapped (rows.map Message.turn) with hturns
  set dropped := rows.length + said.length - turns.length with hdropped
  have hsplit : turns = (rows.drop dropped).map Message.turn ++
      (said.map Turn.cut).drop (dropped - rows.length) := by
    have hsuffix := List.suffix_iff_eq_drop.mp
      (foldl_appendCapped_suffix said (rows.map Message.turn))
    rw [List.length_append, List.length_map, List.length_map, ← hturns, ← hdropped,
      List.drop_append, List.length_map] at hsuffix
    rw [hsuffix, List.map_drop]
  have hnew : turns.drop (rows.length - dropped) =
      (said.map Turn.cut).drop (dropped - rows.length) := by
    rw [hsplit]
    exact List.drop_left' (by rw [List.length_map, List.length_drop])
  have hnext : ∀ row ∈ rows, ∀ last, rows.getLast? = some last → row.seq < last.seq + 1 := by
    intro row hrow last hlast
    obtain ⟨front, hfront⟩ := List.getLast?_eq_some_iff.mp hlast
    have hordered := h.ordered scope
    rw [← hrows, hfront, List.pairwise_append] at hordered
    rw [hfront] at hrow
    rcases List.mem_append.mp hrow with hrow | hrow
    · exact Nat.lt_succ_of_lt (hordered.2.2 row hrow last (List.mem_singleton_self last))
    · rw [List.mem_singleton.mp hrow]
      exact Nat.lt_succ_self _
  refine ⟨dropped, turns.drop (rows.length - dropped), _, _, ?_, ?_, by rw [hnew, ← hsplit],
    hnew ▸ List.drop_sublist _ _, rfl⟩
  · refine stays_of h (fun first hfirst => ?_) fun hnone => ?_
    · rw [hrows, hfirst]
    · rw [hrows, hnone]
  · refine follows_of (fun row hrow => ?_) rfl
    cases hlast : rows.getLast? with
    | none =>
      rw [List.getLast?_eq_none_iff.mp hlast] at hrow
      cases hrow
    | some last => exact hnext row hrow last hlast

variable {dropped : ℕ} {new : List Turn} {kept added : List Message}

lemma inScope_append (hkept : Stays memory scope dropped kept)
    (hadded : Follows scope (inScope memory.messages scope) new added) (other : String) :
    inScope (kept ++ added) other =
      if other = scope then (inScope memory.messages scope).drop dropped ++ added
      else inScope memory.messages other := by
  rw [inScope, List.filter_append]
  split
  · next heq =>
    subst heq
    rw [← hkept.rows, List.filter_eq_self.mpr fun message hmessage =>
      beq_iff_eq.mpr (hadded.placed message hmessage)]
    rfl
  · next hne =>
    have hnone : added.filter (fun message => message.scope == other) = [] := by
      refine List.filter_eq_nil_iff.mpr fun message hmessage => ?_
      rw [hadded.placed message hmessage, beq_iff_eq]
      exact Ne.symm hne
    rw [← hkept.others other hne, hnone, List.append_nil]
    rfl

lemma trimmed_append (h : Trimmed memory.messages) (hkept : Stays memory scope dropped kept)
    (hadded : Follows scope (inScope memory.messages scope) new added)
    (hturns : ((inScope memory.messages scope).drop dropped).map Message.turn ++ new =
      said.foldl appendCapped ((inScope memory.messages scope).map Message.turn)) :
    Trimmed (kept ++ added) := by
  refine ⟨fun other => ?_, fun other => ?_⟩
  · rw [inScope_append hkept hadded]
    split
    · rw [List.map_append, hadded.turns, hturns]
      exact foldl_appendCapped_capped (h.capped scope) said
    · exact h.capped other
  · rw [inScope_append hkept hadded]
    split
    · exact List.pairwise_append.mpr ⟨(h.ordered scope).sublist (List.drop_sublist _ _),
        hadded.rising, fun row hrow => hadded.later row (List.mem_of_mem_drop hrow)⟩
    · exact h.ordered other

end Storing

/-! ### Every run -/

/-- What is remembered is within every limit there is. -/
def Fits (memory : Memory) : Prop :=
  Trimmed memory.messages ∧ total memory.messages ≤ limitGlobalBytes

lemma Fits.sublist {few many : Memory} (h : Fits many) (hsub : few.messages.Sublist many.messages) :
    Fits few := ⟨h.1.sublist hsub, (total_sublist hsub).trans h.2⟩

lemma keepToReach_sublist (memory : Memory) (user : UserId) (reach : Reach) :
    (memory.keepToReach user reach).2.messages.Sublist memory.messages := by
  unfold Memory.keepToReach
  dsimp only
  split
  · exact List.Sublist.refl _
  · split
    · exact List.filter_sublist
    · exact List.Sublist.refl _

lemma Fits.storeTurns {memory : Memory} (h : Fits memory) (scope : String) (said : List Turn)
    (reach : Reach) (now : ℕ) : Fits (memory.storeTurns scope said reach now) := by
  obtain ⟨_, _, _, _, hkept, hadded, hturns, -, hmessages⟩ := storeTurns_cases h.1
  rw [Fits, hmessages]
  exact ⟨(trimmed_append h.1 hkept hadded hturns).sublist (trimGlobal_sublist _ _),
    trimGlobal_total le_rfl⟩

lemma Fits.after {s : Chatting} (h : Fits s.memory) (step : ChatStep) : Fits (s.after step).memory := by
  unfold Chatting.after
  cases step with
  | changes | asks => exact h
  | forgets | clears => exact h.sublist List.filter_sublist
  | keeps k | confirms k =>
    dsimp only
    split
    · exact h.sublist (keepToReach_sublist _ _ _)
    · exact h
  | stores k said now =>
    dsimp only
    split
    · exact h.storeTurns _ said _ now
    · exact h
  | loads k | ends k =>
    dsimp only
    split
    · exact h
    · exact h

lemma fits_afterAll {s : Chatting} (h : Fits s.memory) (steps : List ChatStep) :
    Fits (s.afterAll steps).memory := by
  induction steps generalizing s with
  | nil => exact h
  | cons step steps ih => exact ih (h.after step)

lemma fits_start : Fits Chatting.start.memory :=
  ⟨⟨fun _ => ⟨Nat.zero_le _, Nat.zero_le _⟩, fun _ => List.Pairwise.nil⟩, Nat.zero_le _⟩

/-- In every run each conversation keeps to its limits, in the order it was said in, and all of them
keep to theirs. -/
theorem limits_afterAll (steps : List ChatStep) (scope : String) :
    let memory := (Chatting.start.afterAll steps).memory
    let rows := memory.loadTurns scope
    rows.length ≤ limitMessages ∧ byteLen (rows.map Message.turn) ≤ limitBytes ∧
      rows.Pairwise (fun a b => a.seq < b.seq) ∧
        (memory.messages.map fun message => message.body.length).sum ≤ limitGlobalBytes := by
  have hfits := fits_afterAll fits_start steps
  dsimp only
  rw [loadTurns_eq hfits.1]
  obtain ⟨hmessages, hbytes⟩ := hfits.1.capped scope
  rw [List.length_map] at hmessages
  exact ⟨hmessages, hbytes, hfits.1.ordered scope, hfits.2⟩

/-- While the whole isn't full, storing an exchange and reading it back is capping what was said
before with it, and every other conversation is left as it was. -/
theorem loadTurns_storeTurns (steps : List ChatStep) (scope : String) (said : List Turn)
    (reach : Reach) (now : ℕ)
    (hroom : (((Chatting.start.afterAll steps).memory.messages.map
        fun message => message.body.length).sum +
      (said.map fun turn => turn.cut.body.length).sum) ≤ limitGlobalBytes) :
    let memory := (Chatting.start.afterAll steps).memory
    let stored := memory.storeTurns scope said reach now
    (stored.loadTurns scope).map Message.turn =
        said.foldl appendCapped ((memory.loadTurns scope).map Message.turn) ∧
      ∀ other, other ≠ scope → stored.loadTurns other = memory.loadTurns other := by
  have hfits := fits_afterAll fits_start steps
  dsimp only
  have hstored := hfits.storeTurns scope said reach now
  obtain ⟨dropped, new, kept, added, hkept, hadded, hturns, hnew, hmessages⟩ :=
    @storeTurns_cases _ scope said reach now hfits.1
  have htotal : total (kept ++ added) ≤ limitGlobalBytes := by
    have hsum := (hnew.map fun turn => turn.body.length).sum_le_sum fun _ _ => Nat.zero_le _
    rw [← hadded.turns, List.map_map, List.map_map] at hsum
    rw [total, List.map_append, List.sum_append]
    exact (Nat.add_le_add (total_sublist hkept.sublist) hsum).trans hroom
  have hwhole : Memory.trimGlobal (kept ++ added).length (kept ++ added) = kept ++ added := by
    cases (kept ++ added).length with
    | zero => rfl
    | succ fuel => exact if_pos htotal
  rw [loadTurns_eq hstored.1, loadTurns_eq hfits.1, hmessages, hwhole]
  refine ⟨?_, fun other hother => ?_⟩
  · rw [inScope_append hkept hadded, if_pos rfl, List.map_append, hadded.turns, hturns]
  · rw [loadTurns_eq hstored.1, loadTurns_eq hfits.1, hmessages, hwhole,
      inScope_append hkept hadded, if_neg hother]

namespace Sample

def asking : List ChatStep :=
  [.asks leo "front", .keeps 0, .loads 0, .confirms 0,
    .stores 0 [⟨.user, "is the den warm"⟩, ⟨.assistant, "yes"⟩] 5]

end Sample

open Sample in
theorem loadTurns_storeTurns_asking :
    ((Chatting.start.afterAll asking).memory.messages.map fun message =>
        message.body.length).sum + 3 ≤ limitGlobalBytes ∧
      ((((Chatting.start.afterAll asking).memory.storeTurns (rememberedIn "front" leo)
        [⟨.user, "and"⟩] .nothing 6).loadTurns (rememberedIn "front" leo)).map Message.turn) =
      [⟨.user, "is the den warm"⟩, ⟨.assistant, "yes"⟩, ⟨.user, "and"⟩] := by
  have hroom : ((Chatting.start.afterAll asking).memory.messages.map fun message =>
      message.body.length).sum + 3 ≤ limitGlobalBytes := by decide
  refine ⟨hroom, (loadTurns_storeTurns asking (rememberedIn "front" leo) [⟨.user, "and"⟩] .nothing 6
    hroom).1.trans ?_⟩
  decide

end Irori.Assistant

import Irori.Proofs.Recalling
import Irori.Lib.Index
import Irori.Home.Sample

/-!
# A report keeps its cause

When a report that names the call it was caused by is taken for what it is, whatever other calls are
made, fail and are forgotten.
-/

namespace Irori.Core

variable {κ σ ς : Type}

/-! ### Reports and causes -/

section Reporting

variable [DecidableEq σ] (home : Home κ σ)

def StateReport.uncaused (report : StateReport σ) : StateReport σ := { report with causedBy := none }

omit [DecidableEq σ] in
lemma cleaned_uncaused (report : StateReport σ) :
    Home.cleaned report.uncaused = (Home.cleaned report).uncaused := by
  unfold Home.cleaned StateReport.uncaused
  dsimp only
  split <;> rfl

omit [DecidableEq σ] in
lemma cleaned_causedBy (report : StateReport σ) :
    (Home.cleaned report).causedBy = report.causedBy := by
  unfold Home.cleaned
  split <;> rfl

omit [DecidableEq σ] in
lemma foldReport_uncaused (protocol : ProtocolId) (id : EntityId) (report : StateReport σ) :
    home.foldReport protocol id report.uncaused =
      ((home.foldReport protocol id report).1.uncaused, (home.foldReport protocol id report).2) := by
  unfold Home.foldReport StateReport.uncaused
  dsimp only
  split <;> rfl

omit [DecidableEq σ] in
lemma foldReport_causedBy (protocol : ProtocolId) (id : EntityId) (report : StateReport σ) :
    (home.foldReport protocol id report).1.causedBy = report.causedBy := by
  unfold Home.foldReport
  split <;> rfl

lemma keepReport_parent (protocol : ProtocolId) (report : StateReport σ)
    (parent : Option ContextId) (stamp : Stamp) (id : EntityId) (old : EntityState σ)
    {changed : EntityId} {before : Option (EntityState σ)} {new : EntityState σ}
    (h : .stateChanged changed before new ∈
      (home.keepReport protocol report parent stamp id old).1) :
    new.context.parentId = parent := by
  unfold Home.keepReport at h
  dsimp only at h
  split_ifs at h
  all_goals first
    | exact absurd h List.not_mem_nil
    | cases List.mem_singleton.mp h
      rfl

lemma reportLive_accepted (kinds : Kinds κ σ) {protocol : ProtocolId} {report : StateReport σ}
    {stamp : Stamp} {id : EntityId} {cause : ContextId} (hcause : report.causedBy = some cause)
    (hknown : home.knowsCall protocol cause stamp.now = true) {events : List (Event κ σ)}
    {next : Home κ σ}
    (hok : home.reportLive kinds protocol report.uncaused stamp id = some (.ok events, next)) :
    ∃ (events' : List (Event κ σ)) (next' : Home κ σ),
      home.reportLive kinds protocol report stamp id = some (.ok events', next') ∧
        ∀ (changed : EntityId) (before : Option (EntityState σ)) (new : EntityState σ),
          .stateChanged changed before new ∈ events' → new.context.parentId = some cause := by
  have hfolded : (home.foldReport protocol id report).2.knowsCall protocol cause stamp.now = true := by
    unfold Home.knowsCall at hknown ⊢
    rw [(foldReport_same home protocol id report).recentCalls]
    exact hknown
  unfold Home.reportLive at hok ⊢
  split at hok
  · cases hok
  · rw [show report.uncaused.state = report.state from rfl] at hok
    split at hok
    · cases hok
    · rw [foldReport_uncaused] at hok
      dsimp only [StateReport.uncaused] at hok
      split at hok
      · cases hok
      · next old hold =>
        simp only [foldReport_causedBy, hcause, hfolded, if_true, hold]
        exact ⟨_, _, rfl, fun changed before new hmem =>
          keepReport_parent _ protocol _ (some cause) stamp id old hmem⟩

lemma reportState_accepted (kinds : Kinds κ σ) {protocol : ProtocolId} {report : StateReport σ}
    {stamp : Stamp} {cause : ContextId} (hcause : report.causedBy = some cause)
    (hknown : home.knowsCall protocol cause stamp.now = true) {events : List (Event κ σ)}
    {next : Home κ σ}
    (hok : home.reportState kinds protocol report.uncaused stamp = some (.ok events, next)) :
    ∃ (events' : List (Event κ σ)) (next' : Home κ σ),
      home.reportState kinds protocol report stamp = some (.ok events', next') ∧
        ∀ (changed : EntityId) (before : Option (EntityState σ)) (new : EntityState σ),
          .stateChanged changed before new ∈ events' → new.context.parentId = some cause := by
  unfold Home.reportState at hok ⊢
  rw [cleaned_uncaused] at hok
  dsimp only at hok ⊢
  rw [show (Home.cleaned report).uncaused.validate kinds = (Home.cleaned report).validate kinds
    from rfl, show (Home.cleaned report).uncaused.uniqueId = (Home.cleaned report).uniqueId from rfl]
    at hok
  split at hok
  · cases hok
  · split at hok
    · exact ⟨_, _, rfl, fun _ _ _ hmem => nomatch hmem⟩
    · split at hok
      · cases hok
      · exact reportLive_accepted home kinds (by rw [cleaned_causedBy, hcause]) hknown hok

lemma reportState_refused (kinds : Kinds κ σ) {protocol : ProtocolId} {report : StateReport σ}
    {stamp : Stamp} {cause : ContextId} (hcause : report.causedBy = some cause)
    (hunknown : home.knowsCall protocol cause stamp.now = false)
    (hlive : home.foundEntities[(⟨protocol, report.uniqueId⟩ : Key)]? = none)
    {result : Except Rejected (List (Event κ σ))} {next : Home κ σ}
    (h : home.reportState kinds protocol report stamp = some (result, next)) :
    ∃ why, result = .error why := by
  unfold Home.reportState at h
  dsimp only at h
  rw [cleaned_uniqueId, hlive] at h
  split at h
  · cases h
    exact ⟨_, rfl⟩
  · dsimp only at h
    split at h
    · cases h
      exact ⟨_, rfl⟩
    · next id _ =>
      unfold Home.reportLive at h
      split at h
      · cases h
      · split at h
        · cases h
          exact ⟨_, rfl⟩
        · have hfolded : (home.foldReport protocol id (Home.cleaned report)).2.knowsCall protocol
              cause stamp.now = false := by
            unfold Home.knowsCall at hunknown ⊢
            rw [(foldReport_same home protocol id _).recentCalls]
            exact hunknown
          simp only [foldReport_causedBy, cleaned_causedBy, hcause, hfolded,
            Bool.false_eq_true, if_false, Option.some.injEq, Prod.mk.injEq] at h
          exact ⟨_, h.1.symm⟩

end Reporting

/-! ### What becomes of calls -/

structure CallRecord where
  call : Nat
  protocol : ProtocolId
  context : ContextId
  at_ : Timestamp
  delivered : Option Timestamp
  /-- It was forgotten, not having been delivered. -/
  failed : Bool
  deriving DecidableEq

def CallRecord.fail (k : Nat) (r : CallRecord) : CallRecord :=
  if r.call = k then { r with failed := true } else r

def CallRecord.deliver (k : Nat) (now : Timestamp) (r : CallRecord) : CallRecord :=
  if r.call = k then { r with delivered := some now } else r

section Records

variable (services : Services κ σ ς) (s : Calling κ σ ς) (records : List CallRecord)

/-- The records once a step has happened. -/
def Calling.record : CallStep κ σ → List CallRecord
  | .dispatches k isRunning now =>
    match s.calls[k]? with
    | some ⟨_, _, context, _, .resolved resolved⟩ =>
      if isRunning then records ++ [⟨k, resolved.protocol, context.id, now, none, false⟩]
      else records
    | _ => records
  | .checks k =>
    match s.calls[k]? with
    | some ⟨entity, _, _, _, .recorded resolved⟩ =>
      if s.home.stillDispatchable services entity resolved then records
      else records.map (CallRecord.fail k)
    | _ => records
  | .fails k _ =>
    match s.calls[k]? with
    | some ⟨_, _, _, _, .sending _⟩ => records.map (CallRecord.fail k)
    | _ => records
  | .delivers k now =>
    match s.calls[k]? with
    | some ⟨_, _, _, _, .sending _⟩ => records.map (CallRecord.deliver k now)
    | _ => records
  | _ => records

end Records

def recordedFor (protocol : ProtocolId) (records : List CallRecord) : Nat :=
  records.countP fun r => r.protocol == protocol

section

variable [DecidableEq κ] [DecidableEq σ] (kinds : Kinds κ σ) (services : Services κ σ ς)

/-- A report that passes every other check and names a call that was delivered to its protocol
within the last five minutes is taken, and a change it makes has that call's context as its parent,
while fewer than 1024 calls were recorded since. One that names no call delivered or being delivered
within five minutes is refused. -/
structure Confirmed (home : Home κ σ) (records : List CallRecord) (protocol : ProtocolId)
    (report : StateReport σ) (stamp : Stamp) : Prop where
  accepted : ∀ cause, report.causedBy = some cause →
    ∀ (before after : List CallRecord) (r : CallRecord), records = before ++ r :: after →
      r.protocol = protocol → r.context = cause → ∀ d, r.delivered = some d →
        d ≤ stamp.now → stamp.now ≤ d + callWindow → recordedFor protocol after < maxRecentCalls →
          ∀ (events : List (Event κ σ)) (next : Home κ σ),
            home.reportState kinds protocol report.uncaused stamp = some (.ok events, next) →
              ∃ (events' : List (Event κ σ)) (next' : Home κ σ),
                home.reportState kinds protocol report stamp = some (.ok events', next') ∧
                  ∀ (id : EntityId) (old : Option (EntityState σ)) (new : EntityState σ),
                    .stateChanged id old new ∈ events' → new.context.parentId = some cause
  refused : ∀ cause, report.causedBy = some cause →
    (∀ r ∈ records, r.protocol = protocol → r.context = cause → r.failed = false →
      withinCallWindow (r.delivered.getD r.at_) stamp.now = false) →
        ∀ (result : Except Rejected (List (Event κ σ))) (next : Home κ σ),
          home.reportState kinds protocol report stamp = some (result, next) →
            ∃ why, result = .error why

def ConfirmedAt (s : Calling κ σ ς) (records : List CallRecord) : CallStep κ σ → Prop
  | .told (.reportState protocol report stamp) =>
    Confirmed kinds s.home records protocol report stamp
  | _ => True

def AllConfirmed (s : Calling κ σ ς) (records : List CallRecord) : List (CallStep κ σ) → Prop
  | [] => True
  | step :: steps => ConfirmedAt kinds s records step ∧
      AllConfirmed (s.after kinds services step) (s.record services records step) steps

/-- No other call of the context was delivered to the protocol, or is being delivered. -/
def isOnly (records : List CallRecord) (k : Nat) (protocol : ProtocolId) (context : ContextId) :
    Bool :=
  records.all fun r =>
    !(r.protocol == protocol && r.context == context) || r.call == k || r.failed

/-- The clock hasn't moved between a call's being recorded and delivered in a way that matters, nor
moved on and back while other calls were recorded. -/
def isSteady (protocol : ProtocolId) (cause : ContextId) (now : Timestamp) : List CallRecord → Bool
  | [] => true
  | r :: after =>
    (!(r.protocol == protocol && r.context == cause) || r.failed ||
      match r.delivered with
      | none => true
      | some d =>
        withinCallWindow r.at_ now == withinCallWindow d now &&
          (!withinCallWindow d now || after.all fun later =>
            later.protocol != protocol || withinCallWindow r.at_ later.at_)) &&
      isSteady protocol cause now after

/-- A call that isn't delivered is the only one of its context, and a report that names a cause is
for an entity of the home and comes while the clock is steady. -/
def HeedsCause (s : Calling κ σ ς) (records : List CallRecord) : CallStep κ σ → Bool
  | .checks k =>
    match s.calls[k]? with
    | some ⟨entity, _, context, _, .recorded resolved⟩ =>
      s.home.stillDispatchable services entity resolved ||
        isOnly records k resolved.protocol context.id
    | _ => true
  | .fails k _ =>
    match s.calls[k]? with
    | some ⟨_, _, context, _, .sending resolved⟩ => isOnly records k resolved.protocol context.id
    | _ => true
  | .told (.reportState protocol report stamp) =>
    match report.causedBy with
    | some cause =>
      (s.home.foundEntities[(⟨protocol, report.uniqueId⟩ : Key)]?).isNone &&
        isSteady protocol cause stamp.now records
    | none => true
  | _ => true

def AllHeedCause (s : Calling κ σ ς) (records : List CallRecord) : List (CallStep κ σ) → Bool
  | [] => true
  | step :: steps => HeedsCause services s records step &&
      AllHeedCause (s.after kinds services step) (s.record services records step) steps

end

lemma failed_of_only {records : List CallRecord} {k : Nat} {protocol : ProtocolId}
    {context : ContextId} (h : isOnly records k protocol context = true) {r : CallRecord}
    (hr : r ∈ records) (hprotocol : r.protocol = protocol) (hcontext : r.context = context)
    (hk : r.call ≠ k) : r.failed = true := by
  have hall := List.all_eq_true.mp h r hr
  rw [hprotocol, hcontext] at hall
  simpa [hk] using hall

lemma steady_split {protocol : ProtocolId} {cause : ContextId} {now : Timestamp}
    {before after : List CallRecord} {r : CallRecord}
    (h : isSteady protocol cause now (before ++ r :: after) = true) (hprotocol : r.protocol = protocol)
    (hcause : r.context = cause) (hnot : r.failed = false) {d : Timestamp}
    (hdelivered : r.delivered = some d) :
    withinCallWindow r.at_ now = withinCallWindow d now ∧
      (withinCallWindow d now = true → ∀ later ∈ after, later.protocol = protocol →
        withinCallWindow r.at_ later.at_ = true) := by
  induction before with
  | nil =>
    rw [List.nil_append, isSteady, Bool.and_eq_true] at h
    have hsteady := h.1
    rw [hprotocol, hcause, hnot, hdelivered] at hsteady
    simp only [beq_self_eq_true, Bool.and_self, Bool.not_true, Bool.or_self, Bool.false_or,
      Bool.and_eq_true, beq_iff_eq, Bool.or_eq_true, Bool.not_eq_true', List.all_eq_true, bne_iff_ne,
      ne_eq] at hsteady
    refine ⟨hsteady.1, fun hwithin later hlater hsame => ?_⟩
    rcases hsteady.2 with hout | hall
    · rw [hwithin] at hout
      cases hout
    · exact (hall later hlater).resolve_left fun hne => hne hsame
  | cons first before ih =>
    rw [List.cons_append, isSteady, Bool.and_eq_true] at h
    exact ih h.2

/-! ### What is kept of calls -/

def CallPhase.isUnrecorded : CallPhase ς → Bool
  | .waits => true
  | .turn => true
  | .resolved _ => true
  | _ => false

def CallPhase.onItsWay : CallPhase ς → Option (Resolved ς)
  | .recorded call => some call
  | .sending call => some call
  | _ => none

/-- A call that wasn't forgotten is among those remembered, with no more after it than were recorded
since, unless 1024 were or the clock was too far off when one was. -/
def Kept (home : Home κ σ) (records : List CallRecord) : Prop :=
  ∀ (before after : List CallRecord) (r : CallRecord), records = before ++ r :: after →
    r.failed = false → recordedFor r.protocol after < maxRecentCalls →
      (∀ later ∈ after, later.protocol = r.protocol → withinCallWindow r.at_ later.at_ = true) →
        ∃ older newer : List (ContextId × Timestamp),
          home.recentCalls[r.protocol]? = some (older ++ (r.context, r.at_) :: newer) ∧
            newer.length ≤ recordedFor r.protocol after

/-- What is remembered is of calls that weren't forgotten. -/
def Known (home : Home κ σ) (records : List CallRecord) : Prop :=
  ∀ (protocol : ProtocolId) (calls : List (ContextId × Timestamp)),
    home.recentCalls[protocol]? = some calls → ∀ entry ∈ calls,
      ∃ r ∈ records, r.protocol = protocol ∧ r.context = entry.1 ∧ r.at_ = entry.2 ∧
        r.failed = false

structure Recalled (s : Calling κ σ ς) (records : List CallRecord) : Prop where
  calls : ∀ (k : Nat) (call : Call ς), s.calls[k]? = some call → k < s.nextCall
  made : ∀ r ∈ records, r.call < s.nextCall
  unrecorded : ∀ (k : Nat) (call : Call ς), s.calls[k]? = some call →
    call.phase.isUnrecorded = true → ∀ r ∈ records, r.call ≠ k
  own : ∀ (k : Nat) (call : Call ς) (resolved : Resolved ς), s.calls[k]? = some call →
    call.phase.onItsWay = some resolved → ∀ r ∈ records, r.call = k →
      r.protocol = resolved.protocol ∧ r.context = call.context.id ∧ r.delivered = none ∧
        r.failed = false
  delivered : ∀ r ∈ records, r.delivered.isSome = true → r.failed = false
  kept : Kept s.home records
  known : Known s.home records

variable {s : Calling κ σ ς} {records : List CallRecord}

lemma CallRecord.fail_same (k : Nat) (r : CallRecord) :
    (r.fail k).call = r.call ∧ (r.fail k).protocol = r.protocol ∧ (r.fail k).context = r.context ∧
      (r.fail k).at_ = r.at_ ∧ (r.fail k).delivered = r.delivered := by
  unfold CallRecord.fail
  split <;> exact ⟨rfl, rfl, rfl, rfl, rfl⟩

lemma CallRecord.deliver_same (k : Nat) (now : Timestamp) (r : CallRecord) :
    (r.deliver k now).call = r.call ∧ (r.deliver k now).protocol = r.protocol ∧
      (r.deliver k now).context = r.context ∧ (r.deliver k now).at_ = r.at_ ∧
        (r.deliver k now).failed = r.failed := by
  unfold CallRecord.deliver
  split <;> exact ⟨rfl, rfl, rfl, rfl, rfl⟩

lemma recordedFor_map {f : CallRecord → CallRecord} (hf : ∀ r, (f r).protocol = r.protocol)
    (protocol : ProtocolId) (records : List CallRecord) :
    recordedFor protocol (records.map f) = recordedFor protocol records := by
  unfold recordedFor
  rw [List.countP_map]
  refine List.countP_congr fun r _ => ?_
  show ((f r).protocol == protocol) = true ↔ (r.protocol == protocol) = true
  rw [hf]

lemma map_split {f : CallRecord → CallRecord} {before after : List CallRecord} {r : CallRecord}
    (h : records.map f = before ++ r :: after) :
    ∃ (before' after' : List CallRecord) (r' : CallRecord),
      records = before' ++ r' :: after' ∧ f r' = r ∧ after'.map f = after := by
  obtain ⟨before', rest, hsplit, _, hrest⟩ := List.map_eq_append_iff.mp h
  obtain ⟨r', after', hcons, hr, hafter⟩ := List.map_eq_cons_iff.mp hrest
  exact ⟨before', after', r', by rw [hsplit, hcons], hr, hafter⟩

lemma Kept.map {home : Home κ σ} (h : Kept home records) {f : CallRecord → CallRecord}
    (hf : ∀ r, (f r).protocol = r.protocol ∧ (f r).context = r.context ∧ (f r).at_ = r.at_)
    (hfailed : ∀ r, (f r).failed = false → r.failed = false) : Kept home (records.map f) := by
  intro before after r hsplit hnot hcount hwithin
  obtain ⟨before', after', r', hrecords, hr, hafter⟩ := map_split hsplit
  obtain ⟨hprotocol, hcontext, hat⟩ := hf r'
  rw [← hr] at hnot hcount hwithin ⊢
  rw [← hafter, hprotocol, recordedFor_map fun r => (hf r).1] at hcount
  rw [← hafter, hprotocol, hcontext, hat, recordedFor_map fun r => (hf r).1]
  refine h before' after' r' hrecords (hfailed r' hnot) hcount fun later hlater hsame => ?_
  have hmapped := hwithin (f later) (by rw [← hafter]; exact List.mem_map_of_mem hlater)
    (by rw [(hf later).1, hsame, hprotocol])
  rwa [hat, (hf later).2.2] at hmapped

lemma Kept.congr {home next : Home κ σ} (h : Kept home records)
    (hrecent : next.recentCalls = home.recentCalls) : Kept next records := by
  unfold Kept
  rw [hrecent]
  exact h

lemma Known.congr {home next : Home κ σ} (h : Known home records)
    (hrecent : next.recentCalls = home.recentCalls) : Known next records := by
  unfold Known
  rw [hrecent]
  exact h

/-! ### Recording a call -/

lemma dropWhile_split {α : Type} {f : α → Bool} {entry : α} (hentry : f entry = false)
    (older newer : List α) :
    ∃ older', (older ++ entry :: newer).dropWhile f = older' ++ entry :: newer := by
  induction older with
  | nil => exact ⟨[], by rw [List.nil_append, List.dropWhile_cons_of_neg (by rw [hentry]; decide)]⟩
  | cons first older ih =>
    by_cases hfirst : f first = true
    · rw [List.cons_append, List.dropWhile_cons_of_pos hfirst]
      exact ih
    · exact ⟨first :: older, by rw [List.cons_append, List.dropWhile_cons_of_neg hfirst]⟩

lemma recordCall_get (home : Home κ σ) (protocol : ProtocolId) (context : ContextId)
    (now : Timestamp) :
    ∃ left : List (ContextId × Timestamp),
      (home.recordCall protocol context now).recentCalls[protocol]? =
        some (left ++ [(context, now)]) ∧
      (∀ entry ∈ left, entry ∈ (home.recentCalls[protocol]?).getD []) ∧
      ∀ (older newer : List (ContextId × Timestamp)) (entry : ContextId × Timestamp),
        home.recentCalls[protocol]? = some (older ++ entry :: newer) →
          withinCallWindow entry.2 now = true → newer.length + 1 < maxRecentCalls →
            ∃ older', left = older' ++ entry :: newer := by
  set calls := ((home.recentCalls[protocol]?).getD []).dropWhile
    fun entry => !withinCallWindow entry.2 now with hcalls
  refine ⟨if calls.length = maxRecentCalls then calls.drop 1 else calls, ?_, ?_, ?_⟩
  · show (home.recentCalls.insert protocol _)[protocol]? = _
    rw [Map.get_insert, if_pos rfl]
  · intro entry hentry
    have hmem : entry ∈ calls := by
      split at hentry
      · exact List.mem_of_mem_drop hentry
      · exact hentry
    rw [hcalls] at hmem
    exact List.IsSuffix.mem hmem (List.dropWhile_suffix _)
  · intro older newer entry hget hwithin hlength
    obtain ⟨older', hdropped⟩ := dropWhile_split
      (f := fun entry : ContextId × Timestamp => !withinCallWindow entry.2 now)
      (by rw [hwithin]; rfl) older newer
    have hleft : calls = older' ++ entry :: newer := by
      rw [hcalls, hget, Option.getD_some]
      exact hdropped
    rw [hleft]
    split
    · next hfull =>
      cases older' with
      | nil =>
        rw [List.nil_append, List.length_cons] at hfull
        omega
      | cons first older' => exact ⟨older', rfl⟩
    · exact ⟨older', rfl⟩

lemma recordCall_other (home : Home κ σ) {protocol other : ProtocolId} (hne : protocol ≠ other)
    (context : ContextId) (now : Timestamp) :
    (home.recordCall protocol context now).recentCalls[other]? = home.recentCalls[other]? := by
  show (home.recentCalls.insert protocol _)[other]? = _
  rw [Map.get_insert, if_neg hne]

lemma recordedFor_append (protocol : ProtocolId) (after : List CallRecord) (r : CallRecord) :
    recordedFor protocol (after ++ [r]) =
      recordedFor protocol after + if r.protocol = protocol then 1 else 0 := by
  unfold recordedFor
  rw [List.countP_append, List.countP_singleton]
  congr 1
  split <;> simp_all

lemma append_split {before after : List CallRecord} {r last : CallRecord}
    (h : records ++ [last] = before ++ r :: after) :
    (r = last ∧ after = []) ∨ ∃ after', records = before ++ r :: after' ∧ after = after' ++ [last] := by
  rcases List.eq_nil_or_concat after with hnil | ⟨after', last', hconcat⟩
  · rw [hnil] at h
    have hlast := (List.append_inj' h rfl).2
    exact .inl ⟨(List.cons.inj hlast).1.symm, hnil⟩
  · rw [hconcat, List.concat_eq_append, ← List.cons_append, ← List.append_assoc] at h
    obtain ⟨hrecords, hlast⟩ := List.append_inj' h rfl
    rw [(List.cons.inj hlast).1]
    exact .inr ⟨after', hrecords, hconcat.trans List.concat_eq_append⟩

lemma Kept.record {home : Home κ σ} (h : Kept home records) (last : CallRecord)  :
    Kept (home.recordCall last.protocol last.context last.at_) (records ++ [last]) := by
  intro before after r hsplit hnot hcount hwithin
  obtain ⟨left, hget, _, hleft⟩ := recordCall_get home last.protocol last.context last.at_
  rcases append_split hsplit with ⟨rfl, rfl⟩ | ⟨after', hrecords, hafter⟩
  · exact ⟨left, [], hget, Nat.zero_le _⟩
  · rw [hafter] at hcount hwithin ⊢
    rw [recordedFor_append] at hcount ⊢
    obtain ⟨older, newer, hkept, hnewer⟩ := h before after' r hrecords hnot (by omega)
      fun later hlater => hwithin later (List.mem_append_left _ hlater)
    by_cases hsame : last.protocol = r.protocol
    · rw [if_pos hsame] at hcount ⊢
      rw [hsame] at hget hleft ⊢
      obtain ⟨older', hsplit'⟩ := hleft older newer (r.context, r.at_) hkept
        (hwithin last (List.mem_append_right _ (List.mem_singleton_self _)) hsame) (by omega)
      refine ⟨older', newer ++ [(last.context, last.at_)], ?_, ?_⟩
      · rw [hget, hsplit', List.append_assoc, List.cons_append]
      · rw [List.length_append, List.length_singleton]
        omega
    · rw [if_neg hsame] at hcount ⊢
      exact ⟨older, newer, by rw [recordCall_other home hsame]; exact hkept, by omega⟩

lemma Known.record {home : Home κ σ} (h : Known home records) (last : CallRecord)
    (hlast : last.failed = false) :
    Known (home.recordCall last.protocol last.context last.at_) (records ++ [last]) := by
  intro protocol calls hcalls entry hentry
  by_cases hsame : last.protocol = protocol
  · obtain ⟨left, hget, hsub, _⟩ := recordCall_get home last.protocol last.context last.at_
    rw [← hsame, hget] at hcalls
    cases hcalls
    rcases List.mem_append.mp hentry with hold | hnew
    · have hmem := hsub entry hold
      cases hbefore : home.recentCalls[last.protocol]? with
      | none =>
        rw [hbefore] at hmem
        cases hmem
      | some calls =>
        rw [hbefore] at hmem
        obtain ⟨r, hr, hprotocol, hcontext, hat, hnot⟩ := h last.protocol calls hbefore entry hmem
        exact ⟨r, List.mem_append_left _ hr, hprotocol.trans hsame, hcontext, hat, hnot⟩
    · rw [List.mem_singleton.mp hnew]
      exact ⟨last, List.mem_append_right _ (List.mem_singleton_self _), hsame, rfl, rfl, hlast⟩
  · rw [recordCall_other home hsame] at hcalls
    obtain ⟨r, hr, hfacts⟩ := h protocol calls hcalls entry hentry
    exact ⟨r, List.mem_append_left _ hr, hfacts⟩

/-! ### Forgetting a call -/

lemma forgetCall_get (home : Home κ σ) (protocol : ProtocolId) (context : ContextId) :
    (home.forgetCall protocol context).recentCalls[protocol]? =
      (home.recentCalls[protocol]?).map fun calls => calls.filter fun entry => entry.1 != context := by
  unfold Home.forgetCall
  dsimp only
  split
  · next calls hcalls =>
    rw [Map.get_insert, if_pos rfl, hcalls]
    rfl
  · next hnone =>
    rw [hnone]
    rfl

lemma forgetCall_other (home : Home κ σ) {protocol other : ProtocolId} (hne : protocol ≠ other)
    (context : ContextId) :
    (home.forgetCall protocol context).recentCalls[other]? = home.recentCalls[other]? := by
  unfold Home.forgetCall
  dsimp only
  split
  · rw [Map.get_insert, if_neg hne]
  · rfl

lemma Kept.forget {home : Home κ σ} (h : Kept home records) {protocol : ProtocolId}
    {context : ContextId}
    (hfailed : ∀ r ∈ records, r.protocol = protocol → r.context = context → r.failed = true) :
    Kept (home.forgetCall protocol context) records := by
  intro before after r hsplit hnot hcount hwithin
  obtain ⟨older, newer, hkept, hnewer⟩ := h before after r hsplit hnot hcount hwithin
  by_cases hsame : protocol = r.protocol
  · have hmem : r ∈ records := by
      rw [hsplit]
      exact List.mem_append_right _ List.mem_cons_self
    have hcontext : r.context ≠ context := by
      intro heq
      have hfail := hfailed r hmem hsame.symm heq
      rw [hnot] at hfail
      cases hfail
    refine ⟨older.filter fun entry => entry.1 != context,
      newer.filter fun entry => entry.1 != context, ?_,
      (List.length_filter_le _ _).trans hnewer⟩
    rw [← hsame] at hkept ⊢
    rw [forgetCall_get, hkept, Option.map_some, List.filter_append,
      List.filter_cons_of_pos (by simpa using hcontext)]
  · exact ⟨older, newer, by rw [forgetCall_other home hsame]; exact hkept, hnewer⟩

/-! ### One step -/

lemma Recalled.moves (h : Recalled s records) {k : Nat} {call : Call ς} (hcall : s.calls[k]? = some call)
    {home : Home κ σ} (hrecent : home.recentCalls = s.home.recentCalls) {phase : CallPhase ς}
    (hunrecorded : phase.isUnrecorded = true → call.phase.isUnrecorded = true)
    (hway : ∀ resolved, phase.onItsWay = some resolved → call.phase.onItsWay = some resolved) :
    Recalled (({ s with home } : Calling κ σ ς).withPhase k call phase) records := by
  refine ⟨fun j other hother => ?_, h.made, fun j other hother hphase => ?_,
    fun j other resolved hother hphase => ?_, h.delivered, h.kept.congr hrecent,
    h.known.congr hrecent⟩
  · rcases get_withPhase hother with ⟨rfl, _⟩ | ⟨_, hold⟩
    · exact h.calls j call hcall
    · exact h.calls j other hold
  · rcases get_withPhase hother with ⟨rfl, rfl⟩ | ⟨_, hold⟩
    · exact h.unrecorded j call hcall (hunrecorded hphase)
    · exact h.unrecorded j other hold hphase
  · rcases get_withPhase hother with ⟨rfl, rfl⟩ | ⟨_, hold⟩
    · exact h.own j call resolved hcall (hway resolved hphase)
    · exact h.own j other resolved hold hphase

lemma Recalled.goes (h : Recalled s records) {k : Nat} {call : Call ς} (hcall : s.calls[k]? = some call)
    {phase : CallPhase ς}
    (hunrecorded : phase.isUnrecorded = true → call.phase.isUnrecorded = true)
    (hway : ∀ resolved, phase.onItsWay = some resolved → call.phase.onItsWay = some resolved) :
    Recalled (s.withPhase k call phase) records := by
  show Recalled (({ s with home := s.home } : Calling κ σ ς).withPhase k call phase) records
  exact h.moves hcall rfl hunrecorded hway

lemma Recalled.settles (h : Recalled s records) {k : Nat} {call : Call ς}
    (hcall : s.calls[k]? = some call) {f : CallRecord → CallRecord}
    (hf : ∀ r, (f r).call = r.call)
    (hothers : ∀ r, r.call ≠ k → f r = r)
    (hdelivered : ∀ r ∈ records, (f r).delivered.isSome = true → (f r).failed = false)
    {home : Home κ σ} (hkept : Kept home (records.map f)) (hknown : Known home (records.map f))
    {phase : CallPhase ς} (hunrecorded : phase.isUnrecorded = false)
    (hsettled : phase.onItsWay = none) :
    Recalled (({ s with home } : Calling κ σ ς).withPhase k call phase) (records.map f) := by
  refine ⟨fun j other hother => ?_, fun r hr => ?_, fun j other hother hphase r hr => ?_,
    fun j other way hother hphase r hr hrj => ?_, fun r hr => ?_, hkept, hknown⟩
  · rcases get_withPhase hother with ⟨rfl, _⟩ | ⟨_, hold⟩
    · exact h.calls j call hcall
    · exact h.calls j other hold
  · obtain ⟨r', hr', rfl⟩ := List.mem_map.mp hr
    rw [hf r']
    exact h.made r' hr'
  · obtain ⟨r', hr', rfl⟩ := List.mem_map.mp hr
    rw [hf r']
    rcases get_withPhase hother with ⟨_, rfl⟩ | ⟨_, hold⟩
    · rw [hunrecorded] at hphase
      cases hphase
    · exact h.unrecorded j other hold hphase r' hr'
  · obtain ⟨r', hr', rfl⟩ := List.mem_map.mp hr
    rcases get_withPhase hother with ⟨_, rfl⟩ | ⟨hne, hold⟩
    · rw [hsettled] at hphase
      cases hphase
    · rw [hf r'] at hrj
      rw [hothers r' (by rw [hrj]; exact hne)]
      exact h.own j other way hold hphase r' hr' hrj
  · obtain ⟨r', hr', rfl⟩ := List.mem_map.mp hr
    exact hdelivered r' hr'

lemma Recalled.forget (h : Recalled s records) {k : Nat} {call : Call ς}
    (hcall : s.calls[k]? = some call) {resolved : Resolved ς}
    (hway : call.phase.onItsWay = some resolved)
    (honly : isOnly records k resolved.protocol call.context.id = true) (result : CallResult) :
    Recalled (s.forget k call resolved result) (records.map (CallRecord.fail k)) := by
  have hfail : ∀ r : CallRecord, (r.fail k).failed = false → r.failed = false ∧ r.call ≠ k := by
    intro r hr
    unfold CallRecord.fail at hr
    split at hr
    · cases hr
    · next hne => exact ⟨hr, hne⟩
  have hothers : ∀ r : CallRecord, r.call ≠ k → r.fail k = r := fun r hne => if_neg hne
  have hkept : Kept s.home (records.map (CallRecord.fail k)) :=
    h.kept.map (fun r => ⟨(r.fail_same k).2.1, (r.fail_same k).2.2.1, (r.fail_same k).2.2.2.1⟩)
      fun r hr => (hfail r hr).1
  set home := (s.home.forgetCall resolved.protocol call.context.id).forgetCommand call.entity
  show Recalled (({ s with home } : Calling κ σ ς).withPhase k call (.ending result)) _
  have hdelivered : ∀ r ∈ records, (r.fail k).delivered.isSome = true → (r.fail k).failed = false := by
    intro r hr hsome
    rw [(r.fail_same k).2.2.2.2] at hsome
    by_cases hmine : r.call = k
    · rw [(h.own k call resolved hcall hway r hr hmine).2.2.1] at hsome
      cases hsome
    · rw [hothers r hmine]
      exact h.delivered r hr hsome
  have hforgotten : Kept home (records.map (CallRecord.fail k)) := by
    refine Kept.congr (hkept.forget fun r hr hprotocol hcontext => ?_) rfl
    obtain ⟨r', hr', rfl⟩ := List.mem_map.mp hr
    by_cases hmine : r'.call = k
    · unfold CallRecord.fail
      rw [if_pos hmine]
    · rw [hothers r' hmine] at hprotocol hcontext ⊢
      exact failed_of_only honly hr' hprotocol hcontext hmine
  have hknown : Known (s.home.forgetCall resolved.protocol call.context.id)
      (records.map (CallRecord.fail k)) := by
    intro protocol calls hcalls entry hentry
    have hold : ∃ calls, s.home.recentCalls[protocol]? = some calls ∧ entry ∈ calls ∧
        (protocol = resolved.protocol → entry.1 ≠ call.context.id) := by
      by_cases hsame : resolved.protocol = protocol
      · rw [← hsame, forgetCall_get] at hcalls
        obtain ⟨before, hbefore, rfl⟩ := Option.map_eq_some_iff.mp hcalls
        rw [List.mem_filter] at hentry
        exact ⟨before, by rw [← hsame]; exact hbefore, hentry.1, fun _ => by simpa using hentry.2⟩
      · rw [forgetCall_other s.home hsame] at hcalls
        exact ⟨calls, hcalls, hentry, fun heq => absurd heq.symm hsame⟩
    obtain ⟨before, hbefore, hmem, hne⟩ := hold
    obtain ⟨r, hr, hprotocol, hcontext, hat, hnot⟩ := h.known protocol before hbefore entry hmem
    have hmine : r.call ≠ k := by
      intro hmine
      obtain ⟨hp, hc, _, _⟩ := h.own k call resolved hcall hway r hr hmine
      exact hne (hprotocol.symm.trans hp) (hcontext.symm.trans hc)
    exact ⟨r, List.mem_map.mpr ⟨r, hr, hothers r hmine⟩, hprotocol, hcontext, hat, hnot⟩
  exact h.settles hcall (fun r => (r.fail_same k).1) hothers hdelivered hforgotten
    (hknown.congr rfl) rfl rfl

lemma Recalled.deliver (h : Recalled s records) {k : Nat} {call : Call ς}
    (hcall : s.calls[k]? = some call) {resolved : Resolved ς}
    (hway : call.phase.onItsWay = some resolved) (now : Timestamp) :
    Recalled (s.withPhase k call (.delivered resolved)) (records.map (CallRecord.deliver k now)) := by
  have hothers : ∀ r : CallRecord, r.call ≠ k → r.deliver k now = r := fun r hne => if_neg hne
  have hsame := fun r : CallRecord => r.deliver_same k now
  show Recalled (({ s with home := s.home } : Calling κ σ ς).withPhase k call _) _
  refine h.settles hcall (fun r => (hsame r).1) hothers (fun r hr hsome => ?_)
    (h.kept.map (fun r => ⟨(hsame r).2.1, (hsame r).2.2.1, (hsame r).2.2.2.1⟩)
      fun r hr => (hsame r).2.2.2.2 ▸ hr)
    (fun protocol calls hcalls entry hentry => ?_) rfl rfl
  · rw [(hsame r).2.2.2.2]
    by_cases hmine : r.call = k
    · exact (h.own k call resolved hcall hway r hr hmine).2.2.2
    · rw [hothers r hmine] at hsome
      exact h.delivered r hr hsome
  · obtain ⟨r, hr, hprotocol, hcontext, hat, hnot⟩ := h.known protocol calls hcalls entry hentry
    exact ⟨r.deliver k now, List.mem_map_of_mem hr, (hsame r).2.1.trans hprotocol,
      (hsame r).2.2.1.trans hcontext, (hsame r).2.2.2.1.trans hat, (hsame r).2.2.2.2.trans hnot⟩

lemma Recalled.record (h : Recalled s records) {k : Nat} {call : Call ς}
    (hcall : s.calls[k]? = some call) {resolved : Resolved ς} (hphase : call.phase = .resolved resolved)
    (now : Timestamp) {home : Home κ σ}
    (hrecent : home.recentCalls =
      (s.home.recordCall resolved.protocol call.context.id now).recentCalls) :
    Recalled (({ s with home } : Calling κ σ ς).withPhase k call (.recorded resolved))
      (records ++ [⟨k, resolved.protocol, call.context.id, now, none, false⟩]) := by
  have hnone : ∀ r ∈ records, r.call ≠ k := h.unrecorded k call hcall (by rw [hphase]; rfl)
  refine ⟨fun j other hother => ?_, fun r hr => ?_, fun j other hother hun r hr => ?_,
    fun j other way hother hway r hr hrj => ?_, fun r hr hsome => ?_,
    (h.kept.record ⟨k, resolved.protocol, call.context.id, now, none, false⟩).congr hrecent,
    (h.known.record ⟨k, resolved.protocol, call.context.id, now, none, false⟩ rfl).congr
      hrecent⟩
  · rcases get_withPhase hother with ⟨rfl, _⟩ | ⟨_, hold⟩
    · exact h.calls j call hcall
    · exact h.calls j other hold
  · rcases List.mem_append.mp hr with hold | hnew
    · exact h.made r hold
    · rw [List.mem_singleton.mp hnew]
      exact h.calls k call hcall
  · rcases get_withPhase hother with ⟨_, rfl⟩ | ⟨hne, hold⟩
    · cases hun
    · rcases List.mem_append.mp hr with hbefore | hnew
      · exact h.unrecorded j other hold hun r hbefore
      · rw [List.mem_singleton.mp hnew]
        exact hne.symm
  · rcases get_withPhase hother with ⟨rfl, rfl⟩ | ⟨hne, hold⟩
    · rcases List.mem_append.mp hr with hbefore | hnew
      · exact absurd hrj (hnone r hbefore)
      · cases hway
        rw [List.mem_singleton.mp hnew]
        exact ⟨rfl, rfl, rfl, rfl⟩
    · rcases List.mem_append.mp hr with hbefore | hnew
      · exact h.own j other way hold hway r hbefore hrj
      · rw [List.mem_singleton.mp hnew] at hrj
        exact absurd hrj.symm hne
  · rcases List.mem_append.mp hr with hold | hnew
    · exact h.delivered r hold hsome
    · rw [List.mem_singleton.mp hnew]

lemma Recalled.begin (h : Recalled s records) (entity : EntityId) (command : Command)
    (context : Context) : Recalled (s.begin entity command context) records := by
  refine ⟨fun j other hother => ?_, fun r hr => Nat.lt_succ_of_lt (h.made r hr),
    fun j other hother hphase r hr => ?_, fun j other resolved hother hphase => ?_, h.delivered,
    h.kept, h.known⟩
  · rcases get_begin hother with ⟨rfl, _⟩ | hold
    · exact Nat.lt_succ_self _
    · exact Nat.lt_succ_of_lt (h.calls j other hold)
  · rcases get_begin hother with ⟨rfl, _⟩ | hold
    · exact (h.made r hr).ne
    · exact h.unrecorded j other hold hphase r hr
  · rcases get_begin hother with ⟨_, rfl⟩ | hold
    · cases hphase
    · exact h.own j other resolved hold hphase

lemma Recalled.congr {s' : Calling κ σ ς} (h : Recalled s records)
    (hcalls : ∀ (k : Nat) (call : Call ς), s'.calls[k]? = some call → s.calls[k]? = some call)
    (hnext : s'.nextCall = s.nextCall) (hrecent : s'.home.recentCalls = s.home.recentCalls) :
    Recalled s' records :=
  ⟨fun k call hcall => by rw [hnext]; exact h.calls k call (hcalls k call hcall),
    fun r hr => by rw [hnext]; exact h.made r hr,
    fun k call hcall => h.unrecorded k call (hcalls k call hcall),
    fun k call resolved hcall => h.own k call resolved (hcalls k call hcall), h.delivered,
    h.kept.congr hrecent, h.known.congr hrecent⟩

lemma Recalled.resolves (h : Recalled s records) (services : Services κ σ ς) {k : Nat} {call : Call ς}
    (hcall : s.calls[k]? = some call) (hphase : call.phase = .turn)
    (line : Option (Except CallError Unit)) (stamp : Stamp) :
    Recalled (s.resolves services k call line stamp) records := by
  have hunrecorded : call.phase.isUnrecorded = true := by
    rw [hphase]
    rfl
  have hends : ∀ (home : Home κ σ) (result : CallResult),
      home.recentCalls = s.home.recentCalls →
        Recalled (({ s with home } : Calling κ σ ς).withPhase k call (.ending result)) records :=
    fun _ _ hrecent => h.moves hcall hrecent (fun h => nomatch h) fun _ h => nomatch h
  have hgoesOn : ∀ (home : Home κ σ) (resolved : Resolved ς),
      home.recentCalls = s.home.recentCalls →
        Recalled (({ s with home } : Calling κ σ ς).withPhase k call (.resolved resolved)) records :=
    fun _ _ hrecent => h.moves hcall hrecent (fun _ => hunrecorded) fun _ h => nomatch h
  unfold Calling.resolves
  split
  · exact hends s.home _ rfl
  · split
    · exact hends _ _ (skipUpdate_same s.home call.entity call.context stamp).recentCalls
    · exact hends _ _ (clearSkippedUpdate_same s.home call.entity call.context stamp).recentCalls
    · split
      · exact hgoesOn _ _ (beginUpdate_same s.home call.entity stamp).recentCalls
      · exact hends s.home _ rfl
    · exact hgoesOn s.home _ rfl

variable [DecidableEq κ] [DecidableEq σ]

lemma recalled_after (kinds : Kinds κ σ) (services : Services κ σ ς) (h : Recalled s records)
    {step : CallStep κ σ} (hheeds : HeedsCause services s records step = true) :
    Recalled (s.after kinds services step) (s.record services records step) := by
  have hstays : ∀ {k : Nat} {call : Call ς} {phase : CallPhase ς}, s.calls[k]? = some call →
      phase.isUnrecorded = false → phase.onItsWay = none →
        Recalled (s.withPhase k call phase) records := by
    intro k call phase hcall hrecorded hway
    refine h.goes hcall (fun hun => ?_) fun _ hon => ?_
    · rw [hrecorded] at hun
      cases hun
    · rw [hway] at hon
      cases hon
  unfold Calling.after
  cases step with
  | told op =>
    dsimp only
    split
    · next protocol result home hsender hperformed =>
      have hrecent := (perform_forgets s.home kinds (by rw [hsender]; rfl) hperformed).recentCalls
      exact h.congr (fun _ _ hcall => hcall) rfl hrecent
    · exact h
  | begins entity command context => exact h.begin entity command context
  | getsTurn k =>
    dsimp only
    split
    · next call hcall =>
      split
      · next hphase =>
        split
        · exact h
        · exact h.goes hcall (fun _ => by rw [hphase]; rfl) fun _ hon =>
            nomatch hon
      · exact h
    · exact h
  | leaves k result =>
    dsimp only
    split
    · next call hcall =>
      split
      · exact hstays hcall rfl rfl
      · exact h
    · exact h
  | resolves k line stamp =>
    dsimp only
    split
    · next call hcall =>
      split
      · next hphase => exact h.resolves services hcall hphase line stamp
      · exact h
    · exact h
  | dispatches k isRunning now =>
    unfold Calling.record
    dsimp only
    cases hcall : s.calls[k]? with
    | none => exact h
    | some call =>
      obtain ⟨entity, command, context, lock, phase⟩ := call
      cases phase with
      | resolved resolved =>
        dsimp only
        unfold Calling.dispatches
        split_ifs
        · exact h.record hcall rfl now rfl
        · exact hstays hcall rfl rfl
      | _ => exact h
  | checks k =>
    unfold HeedsCause at hheeds
    unfold Calling.record
    dsimp only at hheeds ⊢
    cases hcall : s.calls[k]? with
    | none => exact h
    | some call =>
      rw [hcall] at hheeds
      obtain ⟨entity, command, context, lock, phase⟩ := call
      cases phase with
      | recorded resolved =>
        dsimp only at hheeds ⊢
        unfold Calling.checks
        split_ifs with hstill
        · exact h.goes hcall (fun hun => nomatch hun) fun _ hon => hon
        · rw [Bool.eq_false_iff.mpr hstill, Bool.false_or] at hheeds
          exact h.forget hcall rfl hheeds _
      | _ => exact h
  | fails k result =>
    unfold HeedsCause at hheeds
    unfold Calling.record
    dsimp only at hheeds ⊢
    cases hcall : s.calls[k]? with
    | none => exact h
    | some call =>
      rw [hcall] at hheeds
      obtain ⟨entity, command, context, lock, phase⟩ := call
      cases phase with
      | sending resolved => exact h.forget hcall rfl hheeds result
      | _ => exact h
  | delivers k now =>
    unfold Calling.record
    dsimp only
    cases hcall : s.calls[k]? with
    | none => exact h
    | some call =>
      obtain ⟨entity, command, context, lock, phase⟩ := call
      cases phase with
      | sending resolved => exact h.deliver hcall rfl now
      | _ => exact h
  | answered k answer =>
    dsimp only
    split
    · next call hcall =>
      split
      · unfold Calling.answered
        split
        · next e _ =>
          have hforgot : (s.home.forgetCommand call.entity).recentCalls = s.home.recentCalls := rfl
          exact h.moves hcall hforgot (fun hun => nomatch hun) fun _ hon => nomatch hon
        · exact hstays hcall rfl rfl
      · exact h
    · exact h
  | givesTurn k =>
    dsimp only
    split
    · next call hcall =>
      split
      · exact hstays hcall rfl rfl
      · exact h
    · exact h
  | releases k =>
    dsimp only
    split
    · next call hcall =>
      split
      · next result _ =>
        have hreleased : Recalled (s.withPhase k call (.released result)) records :=
          hstays hcall rfl rfl
        exact hreleased.congr (fun _ _ hother => hother) rfl rfl
      · exact h
    · exact h
  | drops k =>
    dsimp only
    split
    · split
      · exact h.congr (fun j other hother => (Map.get_erase_some hother).2) rfl rfl
      · exact h
    · exact h

omit [DecidableEq κ] in
lemma Recalled.confirmed (h : Recalled s records) (kinds : Kinds κ σ) (services : Services κ σ ς)
    {protocol : ProtocolId} {report : StateReport σ} {stamp : Stamp}
    (hheeds : HeedsCause services s records (.told (.reportState protocol report stamp)) = true) :
    Confirmed kinds s.home records protocol report stamp := by
  have hsteady : ∀ cause, report.causedBy = some cause →
      s.home.foundEntities[(⟨protocol, report.uniqueId⟩ : Key)]? = none ∧
        isSteady protocol cause stamp.now records = true := by
    intro cause hcause
    unfold HeedsCause at hheeds
    dsimp only at hheeds
    rw [hcause, Bool.and_eq_true, Option.isNone_iff_eq_none] at hheeds
    exact hheeds
  refine ⟨?_, ?_⟩
  · intro cause hcause before after r hsplit hprotocol hcontext d hd hafter hbefore hcount events
      next hok
    have hmem : r ∈ records := by
      rw [hsplit]
      exact List.mem_append_right _ List.mem_cons_self
    have hnot : r.failed = false := h.delivered r hmem (by rw [hd]; rfl)
    have hwithin : withinCallWindow d stamp.now = true := by
      unfold withinCallWindow
      have hwindow : -callWindow ≤ 0 := by decide
      rw [Bool.and_eq_true, decide_eq_true_iff, decide_eq_true_iff]
      exact ⟨hwindow.trans (sub_nonneg.mpr hafter), Int.sub_left_le_of_le_add hbefore⟩
    have hclock := (hsteady cause hcause).2
    rw [hsplit] at hclock
    obtain ⟨hsame, hlater⟩ := steady_split hclock hprotocol hcontext hnot hd
    obtain ⟨older, newer, hkept, _⟩ := h.kept before after r hsplit hnot
      (by rw [hprotocol]; exact hcount) (by rw [hprotocol]; exact hlater hwithin)
    refine reportState_accepted s.home kinds hcause ?_ hok
    unfold Home.knowsCall
    rw [← hprotocol, hkept, Option.any_some, List.any_eq_true]
    refine ⟨(r.context, r.at_), List.mem_append_right _ List.mem_cons_self, ?_⟩
    rw [Bool.and_eq_true, hcontext, hsame]
    exact ⟨beq_self_eq_true _, hwithin⟩
  · intro cause hcause hnone result next hresult
    refine reportState_refused s.home kinds hcause ?_ (hsteady cause hcause).1 hresult
    by_contra hknown
    rw [Bool.not_eq_false] at hknown
    unfold Home.knowsCall at hknown
    obtain ⟨calls, hcalls, hany⟩ := (Option.any_eq_true _ _).mp hknown
    obtain ⟨entry, hentry, hfits⟩ := List.any_eq_true.mp hany
    rw [Bool.and_eq_true, beq_iff_eq] at hfits
    obtain ⟨r, hr, hprotocol, hcontext, hat, hnot⟩ := h.known protocol calls hcalls entry hentry
    have hout := hnone r hr hprotocol (hcontext.trans hfits.1) hnot
    cases hd : r.delivered with
    | none =>
      rw [hd, Option.getD_none, hat, hfits.2] at hout
      cases hout
    | some d =>
      obtain ⟨before, after, hsplit⟩ := List.append_of_mem hr
      have hclock := (hsteady cause hcause).2
      rw [hsplit] at hclock
      have hsame := (steady_split hclock hprotocol (hcontext.trans hfits.1) hnot hd).1
      rw [hd, Option.getD_some, ← hsame, hat, hfits.2] at hout
      cases hout

/-! ### A run -/

lemma allConfirmed_of_recalled (kinds : Kinds κ σ) (services : Services κ σ ς)
    (h : Recalled s records) (steps : List (CallStep κ σ))
    (hheed : AllHeedCause kinds services s records steps = true) :
    AllConfirmed kinds services s records steps := by
  induction steps generalizing s records with
  | nil => trivial
  | cons step steps ih =>
    rw [AllHeedCause, Bool.and_eq_true] at hheed
    refine ⟨?_, ih (recalled_after kinds services h hheed.1) hheed.2⟩
    unfold ConfirmedAt
    split
    · exact h.confirmed kinds services hheed.1
    · trivial

omit [DecidableEq κ] [DecidableEq σ] in
lemma recalled_start : Recalled (.start Home.new : Calling κ σ ς) [] := by
  have hno : ∀ k : Nat, (∅ : Map Nat (Call ς))[k]? = none := fun k => by simp
  refine ⟨fun k call hcall => ?_, fun _ hr => (nomatch hr), fun _ _ _ _ _ hr => (nomatch hr),
    fun k call resolved hcall => ?_, fun _ hr => (nomatch hr), fun before after r hsplit => ?_,
    fun protocol calls hcalls => ?_⟩
  · rw [show (Calling.start Home.new : Calling κ σ ς).calls[k]? = none from hno k] at hcall
    cases hcall
  · rw [show (Calling.start Home.new : Calling κ σ ς).calls[k]? = none from hno k] at hcall
    cases hcall
  · exact absurd hsplit (by simp)
  · have hget : (∅ : Map ProtocolId (List (ContextId × Timestamp)))[protocol]? = some calls := hcalls
    simp at hget

/-- A confirmation is never thrown away for its cause: in every run in which a call that isn't
delivered is the only one of its context, and in which the reports that name a cause are for entities
of the home and come while the clock is steady. -/
theorem allConfirmed_of_heeds (kinds : Kinds κ σ) (services : Services κ σ ς)
    (steps : List (CallStep κ σ))
    (h : AllHeedCause kinds services (.start Home.new) [] steps = true) :
    AllConfirmed kinds services (.start Home.new) [] steps :=
  allConfirmed_of_recalled kinds services recalled_start steps h

def Calling.recordAll (kinds : Kinds κ σ) (services : Services κ σ ς) (s : Calling κ σ ς)
    (records : List CallRecord) : List (CallStep κ σ) → Calling κ σ ς × List CallRecord
  | [] => (s, records)
  | step :: steps =>
    (s.after kinds services step).recordAll kinds services (s.record services records step) steps

lemma AllConfirmed.last {kinds : Kinds κ σ} {services : Services κ σ ς}
    {steps : List (CallStep κ σ)} {step : CallStep κ σ}
    (h : AllConfirmed kinds services s records (steps ++ [step])) :
    ConfirmedAt kinds (s.recordAll kinds services records steps).1
      (s.recordAll kinds services records steps).2 step := by
  induction steps generalizing s records with
  | nil => exact h.1
  | cons first steps ih => exact ih h.2

/-- A call that is carried out, and another that isn't delivered. -/
def Sample.failsAfter (second : Context) : List (CallStep Sample.Ability Sample.On) :=
  Sample.lampThere ++ Sample.asks 0 "turn_on" (Sample.cause 1) ++
    [.delivers 0 0, .answered 0 .done] ++ Sample.leaves 0 ++ Sample.asks 1 "turn_off" second ++
    [.fails 1 (some (.error .timeout))] ++ Sample.leaves 1

def Sample.confirms (second : Context) : List (CallStep Sample.Ability Sample.On) :=
  Sample.failsAfter second ++ [Sample.isNow true (some (Sample.cause 1).id)]

theorem allConfirmed_confirms :
    AllConfirmed Sample.kinds Sample.services (.start Home.new) []
      (Sample.confirms (Sample.cause 2)) :=
  allConfirmed_of_heeds Sample.kinds Sample.services _ (by decide)

/-- Where the second call is of the context of the first, the report of the first is thrown away. -/
theorem not_allConfirmed_confirms :
    ¬ AllConfirmed Sample.kinds Sample.services (.start Home.new) []
      (Sample.confirms (Sample.cause 1)) := by
  intro h
  have hlast : ConfirmedAt Sample.kinds
      (Calling.recordAll Sample.kinds Sample.services (.start Home.new) []
        (Sample.failsAfter (Sample.cause 1))).1 _ _ := h.last
  have hrecords : (Calling.recordAll Sample.kinds Sample.services (.start Home.new) []
      (Sample.failsAfter (Sample.cause 1))).2 =
        [] ++ (⟨0, Sample.demo, (Sample.cause 1).id, 0, some 0, false⟩ : CallRecord) ::
          [⟨1, Sample.demo, (Sample.cause 1).id, 0, none, true⟩] := by
    decide
  set home := (Calling.recordAll Sample.kinds Sample.services (.start Home.new) []
    (Sample.failsAfter (Sample.cause 1))).1.home with hhome
  have hok : ((home.reportState Sample.kinds Sample.demo
      { uniqueId := Sample.relay, state := some (.other true), attributes := ∅, causedBy := none,
        replayed := false } Sample.stamp).map fun outcome => outcome.1.isOk) = some true := by
    rw [hhome]
    decide
  have hnot : ((home.reportState Sample.kinds Sample.demo
      { uniqueId := Sample.relay, state := some (.other true), attributes := ∅,
        causedBy := some (Sample.cause 1).id, replayed := false } Sample.stamp).map
          fun outcome => outcome.1.isOk) = some false := by
    rw [hhome]
    decide
  obtain ⟨⟨result, next⟩, hresult, hisOk⟩ := Option.map_eq_some_iff.mp hok
  cases result with
  | error e => cases hisOk
  | ok events =>
    obtain ⟨events', next', haccepted, _⟩ := hlast.accepted _ rfl _ _ _ hrecords rfl rfl 0 rfl
      (by decide) (by decide) (by decide) events next hresult
    rw [haccepted] at hnot
    cases hnot

end Irori.Core

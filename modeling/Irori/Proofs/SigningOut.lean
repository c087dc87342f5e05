import Irori.Server.Auth
import Irori.Proofs.Revoking

/-!
# Signed out stays signed out

A session is only as good as the password it was begun with. Every ending answered for is kept in
memory and in the table alike, as long as no session it covers is stored or kept after it looked,
each row it covers was seen in memory, and its deletions go through.
-/

namespace Irori.Server
open Config

def Ended.Covers (hash : String) (user : UserId) (edition : Nat) : Ended → Prop
  | .one other => hash = other
  | .person changed at_ kept => user = changed ∧ edition < at_ ∧ kept ≠ some hash
  | .everybody owner at_ => user = owner ∧ edition < at_

instance (hash : String) (user : UserId) (edition : Nat) (which : Ended) :
    Decidable (which.Covers hash user edition) :=
  match which with
  | .one other => inferInstanceAs (Decidable (hash = other))
  | .person changed at_ kept =>
    inferInstanceAs (Decidable (user = changed ∧ edition < at_ ∧ kept ≠ some hash))
  | .everybody owner at_ => inferInstanceAs (Decidable (user = owner ∧ edition < at_))

/-- Whoever a token lets in, no ending answered for covers its session. -/
def Auth.SignsOut (x : Crypto) (s : Auth) : Prop :=
  ∀ which ∈ s.answered, ∀ people token user, s.bearer x people token = some user →
    ∃ edition, s.begun[x.fingerprint token]? = some (user.id, edition) ∧
      ¬ which.Covers (x.fingerprint token) user.id edition

/-- The ending a request has looked at the sessions for, and not answered yet. -/
def Task.ended : Task → Option Ended
  | .dropping which _ _ => which
  | .beginning _ _ done => done
  | .remembering _ _ done => done
  | _ => none

def Task.gone : Task → List String
  | .dropping _ gone _ => gone
  | _ => []

def Auth.ended (s : Auth) : List Ended := s.answered ++ (Map.vals s.tasks).filterMap Task.ended

/-- A session drawn is not one drawn before. -/
def Auth.Draws (x : Crypto) (s : Auth) : AuthEvent → Prop
  | .go n luck =>
    match s.tasks[n]? with
    | some (.beginning ..) => s.begun[x.fingerprint luck.drawn]? = none
    | _ => True
  | _ => True

/-- An ending finds every row it covers in memory and deletes what it found, and no session it
covers is stored or kept after it looked. -/
def Auth.Orderly (x : Crypto) (s : Auth) : AuthEvent → Prop
  | .go n luck =>
    match s.tasks[n]? with
    | some (.ending which _) =>
      ∀ entry ∈ s.rows.toList, ∀ begun ∈ s.begun[entry.1]?,
        which.Covers entry.1 begun.1 begun.2 → s.sessions.contains entry.1
    | some (.dropping (some _) gone _) =>
      luck.works = true ∨ ∀ hash ∈ gone, s.rows.contains hash = false
    | some (.beginning user edition _) =>
      ∀ which ∈ s.ended, ¬ which.Covers (x.fingerprint luck.drawn) user edition
    | some (.remembering hash _ _) =>
      ∀ which ∈ s.ended, ∀ begun ∈ s.begun[hash]?, ¬ which.Covers hash begun.1 begun.2
    | _ => True
  | _ => True

/-- A run whose every step is so. -/
def Auth.All (x : Crypto) (p : Auth → AuthEvent → Prop) (s : Auth) : List AuthEvent → Prop
  | [] => True
  | event :: events => p s event ∧ Auth.All x p (s.after x event) events

end Irori.Server

namespace Irori.Proofs
open Irori Server Config

variable {x : Crypto} {s : Auth} {n : Nat} {task : Task} {which : Ended} {hash : String}
  {session : Session}

/-- No session in memory is covered by an ending that has looked, and no row by one that was
answered, or has nothing more to delete. -/
structure Signed (s : Auth) : Prop where
  sessions : ∀ (hash : String) session, s.sessions[hash]? = some session →
    ∃ edition, s.begun[hash]? = some (session.user, edition) ∧
      ∀ which ∈ s.ended, ¬ which.Covers hash session.user edition
  rows : ∀ (hash : String) row, s.rows[hash]? = some row →
    ∃ user edition, s.begun[hash]? = some (user, edition) ∧ row.user = user.text ∧
      (∀ which ∈ s.answered, ¬ which.Covers hash user edition) ∧
      ∀ (n : Nat) task which, s.tasks[n]? = some task → task.ended = some which →
        which.Covers hash user edition → hash ∈ task.gone
  tasks : ∀ (n : Nat) (hash : String) session done,
    s.tasks[n]? = some (.remembering hash session done) →
      ∃ edition, s.begun[hash]? = some (session.user, edition)

lemma mem_ended : which ∈ s.ended ↔ which ∈ s.answered ∨
    ∃ (n : Nat) (task : Task), s.tasks[n]? = some task ∧ task.ended = some which := by
  rw [Auth.ended, List.mem_append, List.mem_filterMap]
  simp only [Map.mem_vals]
  constructor
  · rintro (h | ⟨task, ⟨n, htask⟩, hended⟩)
    · exact Or.inl h
    · exact Or.inr ⟨n, task, htask, hended⟩
  · rintro (h | ⟨n, task, htask, hended⟩)
    · exact Or.inl h
    · exact Or.inr ⟨task, ⟨n, htask⟩, hended⟩

lemma not_covers_of_keeps {edition : Nat} (h : which.keeps hash session = true) :
    ¬ which.Covers hash session.user edition := by
  cases which with
  | one other => simpa [Ended.keeps, Ended.Covers] using h
  | person user at_ kept =>
    rintro ⟨huser, -, hkept⟩
    simp [Ended.keeps, huser, hkept] at h
  | everybody owner at_ => cases h

lemma signed_start {people : People} {now : Nat} : Signed (.start people now) where
  sessions hash session h := by simp [Auth.start] at h
  rows hash row h := by simp [Auth.start] at h
  tasks n hash session done h := by simp [Auth.start] at h

lemma Signed.mono {s' : Auth} (h : Signed s)
    (hsessions : ∀ (hash : String) session, s'.sessions[hash]? = some session →
      s.sessions[hash]? = some session)
    (hrows : ∀ (hash : String) row, s'.rows[hash]? = some row → s.rows[hash]? = some row)
    (hbegun : s'.begun = s.begun) (hanswered : s'.answered = s.answered)
    (htasks : ∀ (n : Nat) task, s'.tasks[n]? = some task → s.tasks[n]? = some task) :
    Signed s' := by
  have hended : ∀ which ∈ s'.ended, which ∈ s.ended := by
    intro which hwhich
    rw [mem_ended, hanswered] at hwhich
    rw [mem_ended]
    exact hwhich.imp_right fun ⟨n, task, htask, hended⟩ => ⟨n, task, htasks n task htask, hended⟩
  refine ⟨fun hash session hsession => ?_, fun hash row hrow => ?_,
    fun n hash session done htask => ?_⟩
  · obtain ⟨edition, hb, hcovers⟩ := h.sessions hash session (hsessions hash session hsession)
    exact ⟨edition, by rw [hbegun, hb], fun which hwhich => hcovers which (hended which hwhich)⟩
  · obtain ⟨user, edition, hb, huser, hdone, hgone⟩ := h.rows hash row (hrows hash row hrow)
    refine ⟨user, edition, by rw [hbegun, hb], huser, by rwa [hanswered], ?_⟩
    intro n task which htask
    exact hgone n task which (htasks n task htask)
  · rw [hbegun]
    exact h.tasks n hash session done (htasks n _ htask)

lemma get_tasks_proceed (s : Auth) (n k : Nat) (task : Task) :
    (s.proceed n task).tasks[k]? = if n = k then some task else s.tasks[k]? :=
  Map.get_insert s.tasks n k task

lemma Signed.proceed {task' : Task} (h : Signed s)
    (hended : task'.ended = none ∨ ∃ task : Task, s.tasks[n]? = some task ∧
      task'.ended = task.ended ∧ ∀ hash ∈ task.gone, s.rows.contains hash → hash ∈ task'.gone)
    (hremember : ∀ hash session done, task' = .remembering hash session done →
      ∃ edition, s.begun[hash]? = some (session.user, edition)) : Signed (s.proceed n task') := by
  have hof : ∀ (k : Nat) t which, (s.proceed n task').tasks[k]? = some t →
      t.ended = some which → ∃ t' : Task, s.tasks[k]? = some t' ∧ t'.ended = some which ∧
        ∀ hash ∈ t'.gone, s.rows.contains hash → hash ∈ t.gone := by
    intro k t which ht hwhich
    rw [get_tasks_proceed] at ht
    split at ht
    · next heq =>
      subst heq
      cases ht
      rcases hended with hnone | ⟨task, htask, hsame, hgone⟩
      · rw [hnone] at hwhich
        cases hwhich
      · exact ⟨task, htask, hsame ▸ hwhich, hgone⟩
    · exact ⟨t, ht, hwhich, fun _ hmem _ => hmem⟩
  refine ⟨fun hash session hsession => ?_, fun hash row hrow => ?_,
    fun k hash session done ht => ?_⟩
  · obtain ⟨edition, hb, hcovers⟩ := h.sessions hash session hsession
    refine ⟨edition, hb, fun which hwhich => hcovers which ?_⟩
    rw [mem_ended] at hwhich ⊢
    refine hwhich.imp_right fun ⟨k, t, ht, hended⟩ => ?_
    obtain ⟨t', ht', hended', -⟩ := hof k t which ht hended
    exact ⟨k, t', ht', hended'⟩
  · obtain ⟨user, edition, hb, huser, hdone, hrows⟩ := h.rows hash row hrow
    refine ⟨user, edition, hb, huser, hdone, fun k t which ht hwhich hcovers => ?_⟩
    obtain ⟨t', ht', hended', hmem⟩ := hof k t which ht hwhich
    exact hmem hash (hrows k t' which ht' hended' hcovers) (by
      rw [Std.ExtTreeMap.contains_eq_isSome_getElem?, show s.rows[hash]? = some row from hrow]
      rfl)
  · rw [get_tasks_proceed] at ht
    split at ht
    · exact hremember hash session done (Option.some.inj ht)
    · exact h.tasks k hash session done ht

lemma Signed.goesOn (h : Signed s) (n : Nat) (hended : task.ended = none)
    (hremember : ∀ hash session done, task ≠ .remembering hash session done) :
    Signed (s.proceed n task) :=
  h.proceed (Or.inl hended) fun hash session done heq =>
    absurd heq (hremember hash session done)

lemma Signed.leave (h : Signed s) (n : Nat) : Signed (s.leave n) := by
  refine h.mono (fun _ _ h => h) (fun _ _ h => h) rfl rfl fun k task htask => ?_
  have hget : (s.leave n).tasks[k]? = if n = k then none else s.tasks[k]? :=
    Map.get_erase s.tasks n k
  rw [hget] at htask
  split at htask
  · cases htask
  · exact htask

lemma Signed.answer (h : Signed s) (htask : s.tasks[n]? = some task) (hgone : task.gone = []) :
    Signed (s.answer n task.ended) := by
  cases hended : task.ended with
  | none => exact h.leave n
  | some which =>
    have hof : ∀ (k : Nat) t, (s.answer n (some which)).tasks[k]? = some t →
        s.tasks[k]? = some t := by
      intro k t ht
      have hget : (s.answer n (some which)).tasks[k]? = if n = k then none else s.tasks[k]? :=
        Map.get_erase s.tasks n k
      rw [hget] at ht
      split at ht
      · cases ht
      · exact ht
    refine ⟨fun hash session hsession => ?_, fun hash row hrow => ?_,
      fun k hash session done ht => h.tasks k hash session done (hof k _ ht)⟩
    · obtain ⟨edition, hb, hcovers⟩ := h.sessions hash session hsession
      refine ⟨edition, hb, fun other hother => hcovers other ?_⟩
      rw [mem_ended] at hother ⊢
      rcases hother with hother | ⟨k, t, ht, hother⟩
      · rcases List.mem_cons.1 hother with rfl | hother
        · exact Or.inr ⟨n, task, htask, hended⟩
        · exact Or.inl hother
      · exact Or.inr ⟨k, t, hof k t ht, hother⟩
    · obtain ⟨user, edition, hb, huser, hdone, hrows⟩ := h.rows hash row hrow
      refine ⟨user, edition, hb, huser, fun other hother => ?_,
        fun k t other ht => hrows k t other (hof k t ht)⟩
      rcases List.mem_cons.1 hother with rfl | hother
      · intro hcovers
        have hmem := hrows n task other htask hended hcovers
        rw [hgone] at hmem
        cases hmem
      · exact hdone other hother

lemma Signed.forgetting (h : Signed s) (keep : String → Session → Bool) :
    Signed (s.forgetting keep) := by
  refine h.mono (fun hash session hsession => ?_) (fun _ _ h => h) rfl rfl fun _ _ h => h
  rw [Auth.forgetting, Std.ExtTreeMap.getElem?_filter'] at hsession
  exact (Option.filter_eq_some_iff.1 hsession).1

lemma Signed.deleteRow (h : Signed s) (hash : String) : Signed (s.deleteRow hash) := by
  refine h.mono (fun _ _ h => h) (fun other row hrow => ?_) rfl rfl fun _ _ h => h
  rw [Auth.deleteRow, Map.get_erase] at hrow
  split at hrow
  · cases hrow
  · exact hrow

lemma Signed.looks {next : Option (UserId × Nat)} (h : Signed s)
    (hrows : ∀ entry ∈ s.rows.toList, ∀ begun ∈ s.begun[entry.1]?,
      which.Covers entry.1 begun.1 begun.2 → s.sessions.contains entry.1) :
    Signed ((s.forgetting fun hash session => which.keeps hash session).proceed n
      (.dropping (some which) (s.goners fun hash session => which.keeps hash session) next)) := by
  have hforgotten := h.forgetting fun hash session => which.keeps hash session
  have hof : ∀ (k : Nat) t, n ≠ k → ((s.forgetting fun hash session =>
      which.keeps hash session).proceed n (.dropping (some which)
        (s.goners fun hash session => which.keeps hash session) next)).tasks[k]? = some t →
      s.tasks[k]? = some t := by
    intro k t hne ht
    rwa [get_tasks_proceed, if_neg hne] at ht
  refine ⟨fun hash session hsession => ?_, fun hash row hrow => ?_,
    fun k hash session done ht => ?_⟩
  · obtain ⟨edition, hb, hcovers⟩ := hforgotten.sessions hash session hsession
    refine ⟨edition, hb, fun other hother => ?_⟩
    rw [mem_ended] at hother
    rcases hother with hother | ⟨k, t, ht, hended⟩
    · exact hcovers other (mem_ended.2 (Or.inl hother))
    · by_cases hk : n = k
      · rw [get_tasks_proceed, if_pos hk, Option.some.injEq] at ht
        subst ht
        obtain rfl : which = other := Option.some.inj hended
        have hget : s.sessions[hash]? = some session ∧ which.keeps hash session = true := by
          have hsession : (s.sessions.filter fun hash session =>
            which.keeps hash session)[hash]? = some session := hsession
          rwa [Std.ExtTreeMap.getElem?_filter', Option.filter_eq_some_iff] at hsession
        exact not_covers_of_keeps hget.2
      · exact hcovers other (mem_ended.2 (Or.inr ⟨k, t, hof k t hk ht, hended⟩))
  · obtain ⟨user, edition, hb, huser, hdone, hgone⟩ := h.rows hash row hrow
    refine ⟨user, edition, hb, huser, hdone, fun k t other ht hended hcovers => ?_⟩
    by_cases hk : n = k
    · rw [get_tasks_proceed, if_pos hk, Option.some.injEq] at ht
      subst ht
      obtain rfl : which = other := Option.some.inj hended
      have hknown := hrows (hash, row) (Std.ExtTreeMap.mem_toList_iff_getElem?_eq_some.mpr hrow)
        (user, edition) hb hcovers
      rw [Std.ExtTreeMap.contains_eq_isSome_getElem?, Option.isSome_iff_exists] at hknown
      obtain ⟨session, hsession⟩ := hknown
      obtain ⟨edition', hb', -⟩ := h.sessions hash session hsession
      obtain ⟨rfl, rfl⟩ : user = session.user ∧ edition = edition' := by
        rw [hb] at hb'
        simpa using hb'
      refine List.mem_map.2 ⟨(hash, session), List.mem_filter.2
        ⟨Std.ExtTreeMap.mem_toList_iff_getElem?_eq_some.mpr hsession, ?_⟩, rfl⟩
      rw [Bool.not_eq_true']
      by_contra hkeeps
      exact not_covers_of_keeps (Bool.not_eq_false _ ▸ hkeeps) hcovers
    · exact hgone k t other (hof k t hk ht) hended hcovers
  · by_cases hk : n = k
    · rw [get_tasks_proceed, if_pos hk] at ht
      cases ht
    · exact h.tasks k hash session done (hof k _ hk ht)

lemma Signed.storeRow {edition : Nat} (h : Signed s) (works : Bool)
    (hnew : s.begun[hash]? = none)
    (hcovers : ∀ which ∈ s.ended, ¬ which.Covers hash session.user edition) :
    Signed (s.storeRow hash session edition works) := by
  have hbegun : ∀ (other : String) begun, s.begun[other]? = some begun →
      (s.begun.insert hash (session.user, edition))[other]? = some begun := by
    intro other begun hother
    rw [Map.get_insert, if_neg, hother]
    rintro rfl
    rw [hnew] at hother
    cases hother
  refine ⟨fun other session' hsession => ?_, fun other row hrow => ?_,
    fun k other session' done ht => ?_⟩
  · obtain ⟨edition', hb, hnot⟩ := h.sessions other session' hsession
    exact ⟨edition', hbegun other _ hb, hnot⟩
  · have hcases : (works = true ∧ other = hash ∧ row = session.row) ∨
        s.rows[other]? = some row := by
      cases works with
      | true =>
        have hrow : (s.rows.insert hash session.row)[other]? = some row := hrow
        rw [Map.get_insert] at hrow
        split at hrow
        · next heq => exact Or.inl ⟨rfl, heq.symm, (Option.some.inj hrow).symm⟩
        · exact Or.inr hrow
      | false => exact Or.inr hrow
    rcases hcases with ⟨-, rfl, rfl⟩ | hrow
    · refine ⟨session.user, edition, by simp [Auth.storeRow], rfl, fun which hwhich => ?_,
        fun k t which ht hended hcov => ?_⟩
      · exact hcovers which (mem_ended.2 (Or.inl hwhich))
      · exact absurd hcov (hcovers which (mem_ended.2 (Or.inr ⟨k, t, ht, hended⟩)))
    · obtain ⟨user, edition', hb, huser, hdone, hgone⟩ := h.rows other row hrow
      exact ⟨user, edition', hbegun other _ hb, huser, hdone, hgone⟩
  · obtain ⟨edition', hb⟩ := h.tasks k other session' done ht
    exact ⟨edition', hbegun other _ hb⟩

lemma Signed.remember {done : Option Ended} (h : Signed s)
    (htask : s.tasks[n]? = some (.remembering hash session done))
    (hcovers : ∀ which ∈ s.ended, ∀ begun ∈ s.begun[hash]?,
      ¬ which.Covers hash begun.1 begun.2) : Signed (s.remember hash session) := by
  refine ⟨fun other session' hsession => ?_, h.rows, h.tasks⟩
  have hget : (s.sessions.insert hash session)[other]? = some session' := hsession
  rw [Map.get_insert] at hget
  split at hget
  · next heq =>
    subst heq
    cases hget
    obtain ⟨edition, hb⟩ := h.tasks n hash session done htask
    exact ⟨edition, hb, fun which hwhich => hcovers which hwhich (session.user, edition) hb⟩
  · exact h.sessions other session' hget

lemma Signed.restart (h : Signed s) (deletes reads : Bool) : Signed (s.restart deletes reads) := by
  have hrows : ∀ (hash : String) row, (s.restart deletes reads).rows[hash]? = some row →
      s.rows[hash]? = some row := by
    intro hash row hrow
    cases deletes with
    | true =>
      have hrow : (s.rows.filter fun _ row =>
        decide (min (s.now : Int) maxSeconds < row.expires))[hash]? = some row := hrow
      rw [Std.ExtTreeMap.getElem?_filter'] at hrow
      exact (Option.filter_eq_some_iff.1 hrow).1
    | false => exact hrow
  have htasks : ∀ (n : Nat) task, (s.restart deletes reads).tasks[n]? = some task → False := by
    intro n task htask
    simp [Auth.restart] at htask
  have hended : ∀ which ∈ (s.restart deletes reads).ended, which ∈ s.answered := by
    intro which hwhich
    rw [mem_ended] at hwhich
    rcases hwhich with hwhich | ⟨n, task, htask, -⟩
    · exact hwhich
    · exact (htasks n task htask).elim
  refine ⟨fun hash session hsession => ?_, fun hash row hrow => ?_,
    fun n hash session done htask => (htasks n _ htask).elim⟩
  · have hread : ∃ row : SessionRow, (s.restart deletes reads).rows[hash]? = some row ∧
        row.read = some session := by
      simp only [Auth.restart] at hsession
      split at hsession
      · rw [Std.ExtTreeMap.getElem?_filterMap', Option.bind_eq_some_iff] at hsession
        exact hsession
      · simp at hsession
    obtain ⟨row, hrow, hread⟩ := hread
    obtain ⟨user, edition, hb, huser, hdone, -⟩ := h.rows hash row (hrows hash row hrow)
    have hsame : session.user = user := by
      rw [SessionRow.read, huser, parse_text] at hread
      simp only [Except.toOption] at hread
      split at hread
      · cases hread
        rfl
      · cases hread
    exact ⟨edition, by rw [hsame]; exact hb,
      fun which hwhich => by rw [hsame]; exact hdone which (hended which hwhich)⟩
  · obtain ⟨user, edition, hb, huser, hdone, -⟩ := h.rows hash row (hrows hash row hrow)
    exact ⟨user, edition, hb, huser, hdone, fun n task which htask =>
      (htasks n task htask).elim⟩

lemma Signed.answerAsk {ask : Ask} {luck : Luck} (h : Signed s) :
    Signed (s.answerAsk x n luck ask) := by
  cases ask with
  | signIn user password =>
    unfold Auth.answerAsk
    dsimp only
    split
    · exact h.goesOn n rfl (by simp)
    · exact h.leave n
  | signOut cookie =>
    cases cookie with
    | none => exact h.leave n
    | some token => exact h.goesOn n rfl (by simp)
  | editUser call =>
    unfold Auth.answerAsk
    dsimp only
    split
    · exact h.goesOn n rfl (by simp)
    · exact h.leave n
  | removeUser id =>
    unfold Auth.answerAsk
    dsimp only
    split
    · exact h.goesOn n rfl (by simp)
    · exact h.leave n
  | setUp name password =>
    unfold Auth.answerAsk
    dsimp only
    split
    · split
      · exact h.goesOn n rfl (by simp)
      · exact h.leave n
    · exact h.leave n
  | visit token =>
    unfold Auth.answerAsk
    dsimp only
    split
    · split
      · exact h.leave n
      · exact h.goesOn n rfl (by simp)
    · exact h.leave n

lemma Signed.written (h : Signed s) (people : People) : Signed (s.written people) :=
  h.mono (fun _ _ h => h) (fun _ _ h => h) rfl rfl fun _ _ h => h

lemma Signed.writeEdit {call : EditCall} {new : Option String} {locks : Bool} {luck : Luck}
    (h : Signed s) : Signed (s.writeEdit x n luck call new locks) := by
  unfold Auth.writeEdit
  split
  · next people _ _ =>
    split
    · exact (h.written people).goesOn n rfl (by simp)
    · exact (h.written people).leave n
  · exact h.leave n

lemma Signed.writeRemoval {id : UserId} {luck : Luck} (h : Signed s) :
    Signed (s.writeRemoval n luck id) := by
  unfold Auth.writeRemoval
  split
  · next people _ _ => exact (h.written people).goesOn n rfl (by simp)
  · exact h.leave n

lemma Signed.writeOwner {name new : String} {fresh : UserId} {luck : Luck} (h : Signed s) :
    Signed (s.writeOwner n luck name new fresh) := by
  unfold Auth.writeOwner
  split
  · next people id _ _ => exact (h.written people).goesOn n rfl (by simp)
  · exact h.leave n

lemma Signed.dropRows {gone : List String} {next : Option (UserId × Nat)} {done : Option Ended}
    {luck : Luck} (h : Signed s) (htask : s.tasks[n]? = some (.dropping done gone next))
    (hworks : done ≠ none → luck.works = true ∨ ∀ hash ∈ gone, s.rows.contains hash = false) :
    Signed (s.dropRows n luck done gone next) := by
  cases gone with
  | nil =>
    cases next with
    | none => exact h.answer htask rfl
    | some next => exact h.proceed (Or.inr ⟨_, htask, rfl, fun hash hmem _ => hmem⟩) (by simp)
  | cons hash gone =>
    simp only [Auth.dropRows]
    split
    · refine (h.deleteRow hash).proceed (Or.inr ⟨_, htask, rfl, fun other hmem hrow => ?_⟩) (by simp)
      rcases List.mem_cons.1 hmem with rfl | hmem
      · simp [Auth.deleteRow] at hrow
      · exact hmem
    · next hfails =>
      cases done with
      | none => exact h.goesOn n rfl (by simp)
      | some which =>
        refine h.proceed (Or.inr ⟨_, htask, rfl, fun other hmem hrow => ?_⟩) (by simp)
        rcases hworks (by simp) with hworks | hnone
        · exact absurd hworks hfails
        · rw [hnone other hmem] at hrow
          cases hrow

lemma Signed.goTask {luck : Luck} (h : Signed s) (htask : s.tasks[n]? = some task)
    (hdraws : s.Draws x (.go n luck)) (horderly : s.Orderly x (.go n luck)) :
    Signed (s.goTask x n luck task) := by
  rw [Auth.Draws, htask] at hdraws
  rw [Auth.Orderly, htask] at horderly
  cases task with
  | asked ask => exact h.answerAsk
  | checking found password hash edition =>
    cases found with
    | none => exact h.leave n
    | some user =>
      cases hash with
      | none => exact h.leave n
      | some hash =>
        simp only [Auth.goTask]
        split
        · exact h.goesOn n rfl (by simp)
        · exact h.leave n
  | hashing call =>
    simp only [Auth.goTask, Auth.hashNew]
    split
    · exact h.goesOn n rfl (by simp)
    · split
      · exact h.goesOn n rfl (by simp)
      · exact h.leave n
  | refusing call hash locks =>
    simp only [Auth.goTask]
    split
    · exact h.goesOn n rfl (by simp)
    · exact h.leave n
  | writing call hash locks => exact h.writeEdit
  | removing id => exact h.writeRemoval
  | owning name hash fresh => exact h.writeOwner
  | ending which next => exact h.looks horderly
  | expiring now => exact (h.forgetting _).goesOn n rfl (by simp)
  | dropping done gone next =>
    refine h.dropRows htask fun hdone => ?_
    cases done with
    | none => exact absurd rfl hdone
    | some which => exact horderly
  | beginning user edition done =>
    refine (h.storeRow luck.works hdraws horderly).proceed
      (Or.inr ⟨_, htask, rfl, fun hash hmem _ => hmem⟩) fun hash session done heq => ?_
    cases heq
    exact ⟨edition, by simp [Auth.storeRow]⟩
  | remembering hash session done =>
    have htask : (s.remember hash session).tasks[n]? = some (.remembering hash session done) :=
      htask
    exact (h.remember htask horderly).answer htask rfl

lemma Signed.after {event : AuthEvent} (h : Signed s) (hdraws : s.Draws x event)
    (horderly : s.Orderly x event) : Signed (s.after x event) := by
  cases event with
  | ask n ask =>
    simp only [Auth.after]
    split
    · exact h
    · exact h.goesOn n rfl (by simp)
  | go n luck =>
    simp only [Auth.after]
    split
    · next task htask => exact h.goTask htask hdraws horderly
    · exact h
  | reload people => exact h.written people
  | clock now => exact h.mono (fun _ _ h => h) (fun _ _ h => h) rfl rfl fun _ _ h => h
  | restart deletes reads => exact h.restart deletes reads

lemma Signed.afterAll {events : List AuthEvent} (h : Signed s) (hdraws : s.All x (Auth.Draws x) events)
    (horderly : s.All x (Auth.Orderly x) events) : Signed (s.afterAll x events) := by
  induction events generalizing s with
  | nil => exact h
  | cons event events ih => exact ih (h.after hdraws.1 horderly.1) hdraws.2 horderly.2

/-- Signed out stays signed out in every run whose draws are new and whose steps are orderly. -/
theorem signsOut_of_orderly {people : People} {now : Nat} {events : List AuthEvent}
    (hdraws : (Auth.start people now).All x (Auth.Draws x) events)
    (horderly : (Auth.start people now).All x (Auth.Orderly x) events) :
    ((Auth.start people now).afterAll x events).SignsOut x := by
  have h : Signed ((Auth.start people now).afterAll x events) :=
    signed_start.afterAll hdraws horderly
  intro which hwhich people token user hbearer
  rw [Auth.bearer, Option.bind_eq_some_iff] at hbearer
  obtain ⟨id, hid, huser⟩ := hbearer
  obtain ⟨hid, -⟩ := Option.filter_eq_some_iff.1 hid
  obtain rfl : user.id = id := by
    simpa using List.find?_some huser
  unfold Auth.whose at hid
  split at hid
  · cases hid
  · next session hsession =>
    split at hid
    · obtain ⟨edition, hb, hcovers⟩ := h.sessions _ session hsession
      rw [Option.some.inj hid] at hb hcovers
      exact ⟨edition, hb, hcovers which (mem_ended.2 (Or.inl hwhich))⟩
    · cases hid

instance (event : AuthEvent) : Decidable (s.Draws x event) := by
  unfold Auth.Draws
  split
  · split <;> infer_instance
  · infer_instance

instance (event : AuthEvent) : Decidable (s.Orderly x event) := by
  unfold Auth.Orderly
  split
  · split <;> infer_instance
  · infer_instance

instance decidableAll {p : Auth → AuthEvent → Prop} [∀ s event, Decidable (p s event)] :
    (s : Auth) → (events : List AuthEvent) → Decidable (s.All x p events)
  | _, [] => inferInstanceAs (Decidable True)
  | s, event :: events =>
    have := decidableAll (p := p) (s.after x event) events
    inferInstanceAs (Decidable (p s event ∧ (s.after x event).All x p events))

def plainCrypto : Crypto where
  fingerprint := id
  hash password _ := password
  verify password hash := password == hash
  fold := id

lemma ann_slug : checkSlug "user id" "ann" = .ok () := by decide

def ann : UserId := ⟨"ann", ann_slug⟩

def annsHome : People := ⟨[⟨ann, "Ann", .owner⟩], Std.ExtTreeMap.empty.insert ann "password-1"⟩

def lucky (drawn : String) : Luck := ⟨true, drawn⟩

def annSignsIn (n : Nat) (token : String) : List AuthEvent :=
  [.ask n (.signIn "ann" "password-1"), .go n (lucky ""), .go n (lucky ""), .go n (lucky token),
    .go n (lucky "")]

def annChanges (n : Nat) (cookie : Option String) : List AuthEvent :=
  [.ask n (.editUser ⟨⟨some ann, true⟩, true, ann, ⟨none, none, some "password-2",
    some "password-1"⟩, cookie⟩)] ++ List.replicate 7 (.go n (lucky ""))

def twoScreens : List AuthEvent :=
  annSignsIn 0 "first" ++ annSignsIn 1 "second" ++ annChanges 2 (some "first")

theorem signsOut_twoScreens :
    ((Auth.start annsHome 0).afterAll plainCrypto twoScreens).SignsOut plainCrypto ∧
      ((Auth.start annsHome 0).afterAll plainCrypto twoScreens).answered =
        [.person ann 1 (some "first")] ∧
      ((Auth.start annsHome 0).afterAll plainCrypto twoScreens).whose plainCrypto "first" =
        some ann :=
  ⟨signsOut_of_orderly (by decide) (by decide), by decide,
    by decide +kernel⟩

def slowCheck : List AuthEvent :=
  (annSignsIn 0 "late").take 2 ++ annChanges 1 none ++ (annSignsIn 0 "late").drop 2

/-- The session begun with the old password is let in, though the change was answered. -/
theorem not_signsOut_slowCheck :
    (Auth.start annsHome 0).All plainCrypto (Auth.Draws plainCrypto) slowCheck ∧
      ¬ ((Auth.start annsHome 0).afterAll plainCrypto slowCheck).SignsOut plainCrypto := by
  refine ⟨by decide, fun h => ?_⟩
  have hanswered : Ended.person ann 1 none ∈
      ((Auth.start annsHome 0).afterAll plainCrypto slowCheck).answered := by decide
  have hbearer : ((Auth.start annsHome 0).afterAll plainCrypto slowCheck).bearer plainCrypto
      ((Auth.start annsHome 0).afterAll plainCrypto slowCheck).people "late" = some ⟨ann, "Ann", .owner⟩ := by decide +kernel
  obtain ⟨edition, hbegun, hcovers⟩ := h _ hanswered _ _ _ hbearer
  have hlate : ((Auth.start annsHome 0).afterAll plainCrypto slowCheck).begun["late"]? =
      some (ann, 0) := by decide
  rw [show plainCrypto.fingerprint "late" = "late" from rfl, hlate] at hbegun
  cases hbegun
  exact hcovers (by decide)

end Irori.Proofs

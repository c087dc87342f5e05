import Irori.Lib.Index
import Irori.Proofs.SigningOut
import Irori.Server.Sockets

/-!
# No live socket outlives what let it in

What ending a sign-in or a token does to the sockets it let in, at whichever step of opening they
are.
-/

namespace Irori.Proofs
open Irori Config Irori.Server

namespace Hall

def Names (c : Credential) (kind : SeatKind) : Prop :=
  match c with
  | .session hash user => kind = .session hash user
  | .token _ id user => kind = .token id user

instance (c : Credential) (kind : SeatKind) : Decidable (Names c kind) := by
  unfold Names
  split <;> infer_instance

def sure : Act → Bool
  | .dropTokens _ | .write _ => false
  | _ => true

def shuts (acts : List Act) : Bool :=
  acts.contains (.close .openAndSessions) && acts.all sure

def Shutting (s : Hall) : Prop :=
  (Map.vals s.works).any (fun work =>
    match work with
    | .acting acts _ => shuts acts
    | _ => false) = true

instance (s : Hall) : Decidable (Shutting s) := by
  unfold Shutting
  infer_instance

/-- Once a request answered, every seat let in on what it ended is told to close, and so is every
open seat of a home that asks who is there. -/
structure NoneOutlives (s : Hall) : Prop where
  ended : ∀ seat ∈ s.seats, ∀ c : Credential, seat.admitted = some c → c ∈ s.answered →
    seat.told = true
  opens : s.people.locked = true → ¬ Shutting s → ∀ seat ∈ s.seats, seat.kind = .open_ →
    seat.told = true

def locks (x : Crypto) (s : Hall) (write : PeopleWrite) : Bool :=
  !s.people.locked &&
    match s.written x write with
    | .ok (people, _) => people.locked
    | .error _ => false

/-- A step that goes right. What is seated names what let it in, which nothing has ended and closed
seats for since, and it is open only in an open home, or in one about to close such seats. Where a
new password makes a home ask who is there, no seat is open. -/
def Orderly (x : Crypto) (s : Hall) : HallEvent → Prop
  | .goOpening n =>
    match s.openings[n]? with
    | some (.seating kind admitted) =>
      (match admitted with
        | some c => Names c kind ∧ c ∉ s.closed
        | none => True) ∧ (kind = .open_ → s.people.locked = false ∨ Shutting s)
    | _ => True
  | .goWork n _ =>
    match s.works[n]? with
    | some (.acting (.write (.edit call hash) :: _) _) =>
      locks x s (.edit call hash) = true →
        (∀ seat ∈ s.seats, seat.kind = .open_ → seat.told = true) ∨ Shutting s
    | _ => True
  | _ => True

def All (x : Crypto) (p : Hall → HallEvent → Prop) (s : Hall) : List HallEvent → Prop
  | [] => True
  | event :: events => p s event ∧ All x p (s.after x event) events

def ClosesTokens (s : Hall) : Tokens → Closing → Prop
  | .one hash, .token id => hash ∈ s.issued ∧
      ∀ token : AccessToken, s.tokens[hash]? = some token → token.id = id
  | .person user, .userTokens owner => user = owner
  | .all, .allTokens => True
  | _, _ => False

def ClosesSessions : Sessions → Closing → Prop
  | .one hash, .session other => hash = other
  | .person user kept, .userSessions owner except => user = owner ∧ kept = except
  | .all, .openAndSessions => True
  | _, _ => False

/-- What ends sign-ins or tokens is followed at once by what closes their seats, and what sets a
home up by what closes the open ones. -/
def Paired (s : Hall) : List Act → Prop
  | .dropTokens which :: rest => (∃ (closing : Closing) (rest' : List Act),
      rest = .close closing :: rest' ∧ ClosesTokens s which closing) ∧ Paired s rest
  | .forget which :: rest => (∃ (closing : Closing) (rest' : List Act),
      rest = .close closing :: rest' ∧ ClosesSessions which closing) ∧ Paired s rest
  | .write (.owner _ _ _) :: rest => shuts rest = true ∧ Paired s rest
  | _ :: rest => Paired s rest
  | [] => True

/-- The next thing a request does is to close the seats that name this. -/
def Awaits (acts : List Act) (c : Credential) : Prop :=
  ∃ (closing : Closing) (rest : List Act), acts = .close closing :: rest ∧
    ∀ kind : SeatKind, Names c kind → closing.matches_ kind = true

structure Kept (s : Hall) : Prop where
  seats : ∀ seat ∈ s.seats, ∀ c : Credential, seat.admitted = some c →
    seat.told = true ∨ Names c seat.kind ∧ c ∉ s.closed
  works : ∀ (n : Nat) (acts : List Act) (gone : List Credential),
    s.works[n]? = some (.acting acts gone) →
      Paired s acts ∧ ∀ c ∈ gone, c ∈ s.closed ∨ Awaits acts c
  answered : ∀ c ∈ s.answered, c ∈ s.closed
  issued : ∀ (hash : String) (token : AccessToken), s.tokens[hash]? = some token → hash ∈ s.issued
  opens : s.people.locked = true → ¬ Shutting s → ∀ seat ∈ s.seats, seat.kind = .open_ →
    seat.told = true

lemma Kept.noneOutlives {s : Hall} (h : Kept s) : NoneOutlives s where
  ended seat hseat c hc hanswered := by
    rcases h.seats seat hseat c hc with htold | ⟨-, hclosed⟩
    · exact htold
    · exact absurd (h.answered c hanswered) hclosed
  opens := h.opens

variable {x : Crypto} {s s' : Hall} {n : Nat}

lemma shutting_iff : Shutting s ↔ ∃ (n : Nat) (acts : List Act) (gone : List Credential),
    s.works[n]? = some (.acting acts gone) ∧ shuts acts = true := by
  unfold Shutting
  rw [List.any_eq_true]
  constructor
  · rintro ⟨work, hwork, hshuts⟩
    obtain ⟨n, hn⟩ := Map.mem_vals.mp hwork
    cases work with
    | acting acts gone => exact ⟨n, acts, gone, hn, hshuts⟩
    | _ => cases hshuts
  · rintro ⟨n, acts, gone, hn, hshuts⟩
    exact ⟨_, Map.mem_vals.mpr ⟨n, hn⟩, hshuts⟩

lemma kept_start (people : People) (sessions : Map String Session)
    (tokens : Map String AccessToken) (now : Nat) :
    Kept (Hall.start people sessions tokens now) where
  seats seat hseat := by cases hseat
  works n acts gone hn := by simp [Hall.start] at hn
  answered c hc := by cases hc
  issued hash token ht := by
    rw [Hall.start] at ht ⊢
    rw [Std.ExtTreeMap.mem_keys, Std.ExtTreeMap.mem_iff_isSome_getElem?, ht]
    rfl
  opens _ _ seat hseat := by cases hseat

lemma Paired.congr {acts : List Act} (h : Paired s acts)
    (hissued : ∀ hash ∈ s.issued, hash ∈ s'.issued)
    (htokens : ∀ hash ∈ s.issued, ∀ token : AccessToken, s'.tokens[hash]? = some token →
      s.tokens[hash]? = some token) : Paired s' acts := by
  have hcloses : ∀ {which : Tokens} {closing : Closing}, ClosesTokens s which closing →
      ClosesTokens s' which closing := by
    intro which closing hcloses
    unfold ClosesTokens at hcloses ⊢
    split at hcloses
    · exact ⟨hissued _ hcloses.1, fun token ht => hcloses.2 token (htokens _ hcloses.1 token ht)⟩
    all_goals exact hcloses
  induction acts with
  | nil => trivial
  | cons act rest ih =>
    cases act with
    | dropTokens which =>
      obtain ⟨⟨closing, rest', hrest, hclosing⟩, hpaired⟩ := h
      exact ⟨⟨closing, rest', hrest, hcloses hclosing⟩, ih hpaired⟩
    | forget which => exact ⟨h.1, ih h.2⟩
    | write write =>
      cases write with
      | owner name hash fresh => exact ⟨h.1, ih h.2⟩
      | _ => exact ih h
    | _ => exact ih h

lemma shuts_about {acts : List Act} {owner : Option UserId} (h : shuts acts = true) :
    shuts (acts.map (Act.about owner)) = true := by
  simp only [shuts, Bool.and_eq_true, List.contains_iff_mem, List.all_eq_true] at h ⊢
  refine ⟨List.mem_map.mpr ⟨_, h.1, rfl⟩, fun act hact => ?_⟩
  obtain ⟨before, hbefore, rfl⟩ := List.mem_map.mp hact
  have hsure := h.2 before hbefore
  cases before with
  | begin_ user => cases user <;> exact hsure
  | _ => exact hsure

lemma Paired.about {acts : List Act} (h : Paired s acts) (owner : Option UserId) :
    Paired s (acts.map (Act.about owner)) := by
  have hclose : ∀ {closing : Closing} {rest : List Act},
      (Act.close closing :: rest).map (Act.about owner) =
        .close closing :: rest.map (Act.about owner) := rfl
  induction acts with
  | nil => trivial
  | cons act rest ih =>
    cases act with
    | dropTokens which =>
      obtain ⟨⟨closing, rest', rfl, hclosing⟩, hpaired⟩ := h
      exact ⟨⟨closing, _, hclose, hclosing⟩, ih hpaired⟩
    | forget which =>
      obtain ⟨⟨closing, rest', rfl, hclosing⟩, hpaired⟩ := h
      exact ⟨⟨closing, _, hclose, hclosing⟩, ih hpaired⟩
    | write write =>
      cases write with
      | owner name hash fresh => exact ⟨shuts_about h.1, ih h.2⟩
      | _ => exact ih h
    | begin_ user => cases user <;> exact ih h
    | close closing => exact ih h

lemma Kept.still (h : Kept s) (hworks : s'.works = s.works) (htokens : s'.tokens = s.tokens)
    (hissued : s'.issued = s.issued) (hclosed : s'.closed = s.closed) :
    ∀ (n : Nat) (acts : List Act) (gone : List Credential),
      s'.works[n]? = some (.acting acts gone) →
        Paired s' acts ∧ ∀ c ∈ gone, c ∈ s'.closed ∨ Awaits acts c := by
  intro n acts gone hn
  rw [hworks] at hn
  obtain ⟨hpaired, hgone⟩ := h.works n acts gone hn
  refine ⟨hpaired.congr (fun hash hi => ?_) fun hash _ token ht => ?_, fun c hc => ?_⟩
  · rwa [hissued]
  · rwa [htokens] at ht
  · rw [hclosed]
    exact hgone c hc

lemma Shutting.mono (h : Shutting s) (hothers : ∀ m : Nat, n ≠ m → s'.works[m]? = s.works[m]?)
    (hn : ∀ (acts : List Act) (gone : List Credential), s.works[n]? = some (.acting acts gone) →
      shuts acts = true → Shutting s') : Shutting s' := by
  obtain ⟨m, acts, gone, hm, hshuts⟩ := shutting_iff.mp h
  by_cases hmn : n = m
  · subst hmn
    exact hn acts gone hm hshuts
  · exact shutting_iff.mpr ⟨m, acts, gone, (hothers m hmn).trans hm, hshuts⟩

lemma Kept.working (h : Kept s) {work : Work}
    (hwork : ∀ (acts : List Act) (gone : List Credential), work = .acting acts gone →
      Paired s acts ∧ ∀ c ∈ gone, c ∈ s.closed ∨ Awaits acts c)
    (hshuts : ∀ (acts : List Act) (gone : List Credential),
      s.works[n]? = some (.acting acts gone) → shuts acts = true →
        ∃ (acts' : List Act) (gone' : List Credential),
          work = .acting acts' gone' ∧ shuts acts' = true) :
    Kept (s.working n work) := by
  refine { h with works := fun m acts gone hm => ?_, opens := fun hlocked hshutting => ?_ }
  · rcases Map.get_insert_some hm with ⟨-, heq⟩ | ⟨-, hm⟩
    · obtain ⟨hpaired, hgone⟩ := hwork acts gone heq
      exact ⟨hpaired.congr (fun _ hi => hi) fun _ _ _ ht => ht, hgone⟩
    · obtain ⟨hpaired, hgone⟩ := h.works m acts gone hm
      exact ⟨hpaired.congr (fun _ hi => hi) fun _ _ _ ht => ht, hgone⟩
  · refine h.opens hlocked fun hbefore => hshutting ?_
    refine hbefore.mono (n := n) (fun m hm => ?_) fun acts gone hn hacts => ?_
    · exact (Map.get_insert _ _ _ _).trans (if_neg hm)
    · obtain ⟨acts', gone', rfl, hacts'⟩ := hshuts acts gone hn hacts
      exact shutting_iff.mpr ⟨n, acts', gone', Map.get_insert_self _ _ _, hacts'⟩

lemma Kept.answer (h : Kept s) {gone : List Credential} (hgone : ∀ c ∈ gone, c ∈ s.closed)
    (hshuts : ∀ (acts : List Act) (gone : List Credential),
      s.works[n]? = some (.acting acts gone) → shuts acts = false) : Kept (s.answer n gone) := by
  refine { h with
    works := fun m acts gone hm => ?_, answered := fun c hc => ?_
    opens := fun hlocked hshutting => ?_ }
  · obtain ⟨hpaired, hgone⟩ := h.works m acts gone (Map.get_erase_some hm).2
    exact ⟨hpaired.congr (fun _ hi => hi) fun _ _ _ ht => ht, hgone⟩
  · rcases List.mem_append.mp hc with hc | hc
    · exact hgone c hc
    · exact h.answered c hc
  · refine h.opens hlocked fun hbefore => hshutting ?_
    refine hbefore.mono (n := n) (fun m hm => ?_) fun acts gone hn hacts => ?_
    · exact (Map.get_erase _ _ _).trans (if_neg hm)
    · rw [hshuts acts gone hn] at hacts
      cases hacts

lemma Kept.gone_closed (h : Kept s) {act : Act} {rest : List Act} {gone : List Credential}
    (hn : s.works[n]? = some (.acting (act :: rest) gone))
    (hact : ∀ closing : Closing, act ≠ .close closing) : ∀ c ∈ gone, c ∈ s.closed := by
  intro c hc
  rcases (h.works n _ gone hn).2 c hc with hclosed | ⟨closing, rest', heq, -⟩
  · exact hclosed
  · rw [List.cons.injEq] at heq
    exact absurd heq.1 (hact closing)

lemma mem_goneTokens {which : Tokens} {c : Credential} (hc : c ∈ s.goneTokens which) :
    ∃ (hash : String) (token : AccessToken), s.tokens[hash]? = some token ∧
      which.keeps hash token = false ∧ c = .token hash token.id token.user := by
  obtain ⟨⟨hash, token⟩, hentry, rfl⟩ := List.mem_map.mp hc
  obtain ⟨hmem, hkeeps⟩ := List.mem_filter.mp hentry
  exact ⟨hash, token, Std.ExtTreeMap.mem_toList_iff_getElem?_eq_some.mp hmem,
    by simpa using hkeeps, rfl⟩

lemma mem_goneSessions {which : Sessions} {c : Credential} (hc : c ∈ s.goneSessions which) :
    ∃ (hash : String) (session : Session), which.keeps hash session = false ∧
      c = .session hash session.user := by
  obtain ⟨⟨hash, session⟩, hentry, rfl⟩ := List.mem_map.mp hc
  exact ⟨hash, session, by simpa using (List.mem_filter.mp hentry).2, rfl⟩

lemma get_filter_some {β : Type} {m : Map String β} {p : String → β → Bool} {k : String} {v : β}
    (h : (m.filter p)[k]? = some v) : m[k]? = some v := by
  rw [Std.ExtTreeMap.getElem?_filter', Option.filter_eq_some_iff] at h
  exact h.1

lemma awaits_tokens {which : Tokens} {closing : Closing} (h : ClosesTokens s which closing)
    (rest : List Act) {c : Credential} (hc : c ∈ s.goneTokens which) :
    Awaits (.close closing :: rest) c := by
  obtain ⟨hash, token, htoken, hkeeps, rfl⟩ := mem_goneTokens hc
  refine ⟨closing, rest, rfl, fun kind hkind => ?_⟩
  cases hkind
  unfold ClosesTokens at h
  split at h
  · next other id =>
    rw [Tokens.keeps, decide_eq_false_iff_not, not_not] at hkeeps
    subst hkeeps
    simpa [Closing.matches_] using h.2 token htoken
  · subst h
    simpa [Closing.matches_, Tokens.keeps] using hkeeps
  · rfl
  · exact h.elim

lemma awaits_sessions {which : Sessions} {closing : Closing} (h : ClosesSessions which closing)
    (rest : List Act) {c : Credential} (hc : c ∈ s.goneSessions which) :
    Awaits (.close closing :: rest) c := by
  obtain ⟨hash, session, hkeeps, rfl⟩ := mem_goneSessions hc
  refine ⟨closing, rest, rfl, fun kind hkind => ?_⟩
  cases hkind
  unfold ClosesSessions at h
  split at h
  · next other other' =>
    rw [Sessions.keeps, decide_eq_false_iff_not, not_not] at hkeeps
    rw [Closing.matches_, decide_eq_true_eq, hkeeps, h]
  · obtain ⟨rfl, rfl⟩ := h
    simpa [Closing.matches_, Sessions.keeps] using hkeeps
  · rfl
  · exact h.elim

lemma Kept.dropTokens (h : Kept s) {which : Tokens} {rest : List Act} {gone : List Credential}
    (hn : s.works[n]? = some (.acting (.dropTokens which :: rest) gone)) (luck : Luck) :
    Kept (s.act x n luck rest gone (.dropTokens which)) := by
  have hgone := h.gone_closed hn (fun _ heq => nomatch heq)
  obtain ⟨⟨closing, rest', rfl, hclosing⟩, hpaired⟩ := (h.works n _ gone hn).1
  have hshuts : ∀ (acts : List Act) (gone' : List Credential),
      s.works[n]? = some (.acting acts gone') → shuts acts = false := by
    intro acts gone' hacts
    rw [hn, Option.some.injEq, Work.acting.injEq] at hacts
    rw [← hacts.1]
    simp [shuts, sure]
  unfold Hall.act
  dsimp only
  split
  · have hworking : Kept (s.working n (.acting (.close closing :: rest')
        (s.goneTokens which ++ gone))) := by
      refine h.working (fun acts gone' heq => ?_) fun acts gone' hacts hshut => ?_
      · rw [Work.acting.injEq] at heq
        obtain ⟨rfl, rfl⟩ := heq
        refine ⟨hpaired, fun c hc => ?_⟩
        rcases List.mem_append.mp hc with hc | hc
        · exact .inr (awaits_tokens hclosing rest' hc)
        · exact .inl (hgone c hc)
      · rw [hshuts acts gone' hacts] at hshut
        cases hshut
    have hfewer : ∀ (hash : String) (token : AccessToken),
        (s.tokens.filter fun hash token => which.keeps hash token)[hash]? = some token →
          s.tokens[hash]? = some token := fun hash token => get_filter_some
    refine { hworking with works := fun m acts gone' hm => ?_, issued := fun hash token ht => ?_ }
    · obtain ⟨hpaired', hgone'⟩ := hworking.works m acts gone' hm
      exact ⟨hpaired'.congr (fun _ hi => hi) fun hash _ token ht => hfewer hash token ht, hgone'⟩
    · exact h.issued hash token (hfewer hash token ht)
  · exact h.answer hgone hshuts

lemma Kept.forget (h : Kept s) {which : Sessions} {rest : List Act} {gone : List Credential}
    (hn : s.works[n]? = some (.acting (.forget which :: rest) gone)) (luck : Luck) :
    Kept (s.act x n luck rest gone (.forget which)) := by
  have hgone := h.gone_closed hn (fun _ heq => nomatch heq)
  obtain ⟨⟨closing, rest', rfl, hclosing⟩, hpaired⟩ := (h.works n _ gone hn).1
  have hworking : Kept (s.working n (.acting (.close closing :: rest')
      (s.goneSessions which ++ gone))) := by
    refine h.working (fun acts gone' heq => ?_) fun acts gone' hacts hshut => ?_
    · rw [Work.acting.injEq] at heq
      obtain ⟨rfl, rfl⟩ := heq
      refine ⟨hpaired, fun c hc => ?_⟩
      rcases List.mem_append.mp hc with hc | hc
      · exact .inr (awaits_sessions hclosing rest' hc)
      · exact .inl (hgone c hc)
    · rw [hn, Option.some.injEq, Work.acting.injEq] at hacts
      rw [← hacts.1] at hshut
      refine ⟨_, _, rfl, ?_⟩
      simpa [shuts, sure] using hshut
  exact { hworking with works := hworking.still rfl rfl rfl rfl }

lemma Kept.begin_ (h : Kept s) {user : Option UserId} {rest : List Act} {gone : List Credential}
    (hn : s.works[n]? = some (.acting (.begin_ user :: rest) gone)) (luck : Luck) :
    Kept (s.act x n luck rest gone (.begin_ user)) := by
  have hgone := h.gone_closed hn (fun _ heq => nomatch heq)
  have hpaired : Paired s rest := (h.works n _ gone hn).1
  have hworking : Kept (s.working n (.acting rest gone)) := by
    refine h.working (fun acts gone' heq => ?_) fun acts gone' hacts hshut => ?_
    · rw [Work.acting.injEq] at heq
      obtain ⟨rfl, rfl⟩ := heq
      exact ⟨hpaired, fun c hc => .inl (hgone c hc)⟩
    · rw [hn, Option.some.injEq, Work.acting.injEq] at hacts
      rw [← hacts.1] at hshut
      refine ⟨_, _, rfl, ?_⟩
      simpa [shuts, sure] using hshut
  cases user with
  | none => exact hworking
  | some user =>
    exact { hworking with works := hworking.still rfl rfl rfl rfl }

lemma mem_closeSeats {which : Closing} {seats : List Seat} {seat : Seat}
    (h : seat ∈ closeSeats which seats) : ∃ before ∈ seats, before.kind = seat.kind ∧
      before.admitted = seat.admitted ∧ (before.told = true → seat.told = true) ∧
        (which.matches_ seat.kind = true → seat.told = true) ∧
          (seat.told = true ∨ seat = before) := by
  obtain ⟨before, hbefore, rfl⟩ := List.mem_map.mp h
  refine ⟨before, hbefore, ?_⟩
  split
  · exact ⟨rfl, rfl, fun _ => rfl, fun _ => rfl, .inl rfl⟩
  · next hmatches => exact ⟨rfl, rfl, id, fun heq => absurd heq hmatches, .inr rfl⟩

lemma Kept.close (h : Kept s) {which : Closing} {rest : List Act} {gone : List Credential}
    (hn : s.works[n]? = some (.acting (.close which :: rest) gone)) (luck : Luck) :
    Kept (s.act x n luck rest gone (.close which)) := by
  obtain ⟨hpaired, hgone⟩ := h.works n _ gone hn
  have hpaired : Paired s rest := hpaired
  -- Whatever names something the request ended is closed with it.
  have hmatches : ∀ c ∈ gone, c ∈ s.closed ∨
      ∀ kind : SeatKind, Names c kind → which.matches_ kind = true := by
    intro c hc
    rcases hgone c hc with hclosed | ⟨closing, rest', heq, hmatches⟩
    · exact .inl hclosed
    · rw [List.cons.injEq, Act.close.injEq] at heq
      exact .inr (heq.1 ▸ hmatches)
  constructor
  · intro seat hseat c hc
    obtain ⟨before, hbefore, hkind, hadmitted, htold, hclose, -⟩ := mem_closeSeats hseat
    rcases h.seats before hbefore c (hadmitted.trans hc) with hbeforeTold | ⟨hnames, hclosed⟩
    · exact .inl (htold hbeforeTold)
    · rw [hkind] at hnames
      by_cases hcgone : c ∈ gone
      · rcases hmatches c hcgone with hin | hall
        · exact absurd hin hclosed
        · exact .inl (hclose (hall _ hnames))
      · exact .inr ⟨hnames, fun hin => (List.mem_append.mp hin).elim hcgone hclosed⟩
  · intro m acts gone' hm
    rcases Map.get_insert_some hm with ⟨-, heq⟩ | ⟨-, hm⟩
    · rw [Work.acting.injEq] at heq
      obtain ⟨rfl, rfl⟩ := heq
      exact ⟨hpaired.congr (fun _ hi => hi) fun _ _ _ ht => ht,
        fun c hc => .inl (List.mem_append_left _ hc)⟩
    · obtain ⟨hpaired', hgone'⟩ := h.works m acts gone' hm
      exact ⟨hpaired'.congr (fun _ hi => hi) fun _ _ _ ht => ht,
        fun c hc => (hgone' c hc).imp_left (List.mem_append_right _)⟩
  · exact fun c hc => List.mem_append_right _ (h.answered c hc)
  · exact h.issued
  · intro hlocked hshutting seat hseat hopen
    obtain ⟨before, hbefore, hkind, -, htold, hclose, -⟩ := mem_closeSeats hseat
    by_cases hwhich : which = .openAndSessions
    · refine hclose ?_
      rw [hopen, hwhich]
      rfl
    · refine htold (h.opens hlocked (fun hbefore => hshutting ?_) before hbefore
        (hkind.trans hopen))
      refine hbefore.mono (n := n) (fun m hm => ?_) fun acts gone' hacts hshut => ?_
      · exact (Map.get_insert _ _ _ _).trans (if_neg hm)
      · rw [hn, Option.some.injEq, Work.acting.injEq] at hacts
        refine shutting_iff.mpr ⟨n, rest, gone, Map.get_insert_self _ _ _, ?_⟩
        rw [← hacts.1] at hshut
        simpa [shuts, sure, Ne.symm hwhich] using hshut

lemma shuts_write (write : PeopleWrite) (rest : List Act) :
    shuts (.write write :: rest) = false := by
  simp [shuts, sure]

lemma locked_of_removed {people made : People} {id : UserId}
    (h : people.edit (removed id) = .ok (made, ())) (hlocked : made.locked = true) :
    people.locked = true := by
  unfold People.edit at h
  split at h
  · cases h
  · next left hleft =>
    split at h
    · cases h
    · cases h
      unfold removed at hleft
      split at hleft
      · cases hleft
      · cases hleft
        by_contra hopen
        have hempty : people.hashes = ∅ := by
          simpa [People.locked, Std.ExtTreeMap.isEmpty_iff] using hopen
        have hnone : (people.without id).kept.hashes = ∅ := by
          ext k v
          simp [People.kept, People.without, hempty]
        rw [People.locked, hnone] at hlocked
        cases hlocked

lemma Kept.write (h : Kept s) {write : PeopleWrite} {rest : List Act} {gone : List Credential}
    (hn : s.works[n]? = some (.acting (.write write :: rest) gone)) (luck : Luck)
    (hlocks : ∀ (call : EditCall) (hash : Option String), write = .edit call hash →
      locks x s write = true →
        (∀ seat ∈ s.seats, seat.kind = .open_ → seat.told = true) ∨ Shutting s) :
    Kept (s.act x n luck rest gone (.write write)) := by
  have hgone := h.gone_closed hn (fun _ heq => nomatch heq)
  have hpaired : Paired s rest := by
    have hall := (h.works n _ gone hn).1
    cases write with
    | owner name hash fresh => exact hall.2
    | _ => exact hall
  have hshuts : ∀ (acts : List Act) (gone' : List Credential),
      s.works[n]? = some (.acting acts gone') → shuts acts = false := by
    intro acts gone' hacts
    rw [hn, Option.some.injEq, Work.acting.injEq] at hacts
    rw [← hacts.1]
    exact shuts_write write rest
  unfold Hall.act
  dsimp only
  split
  · next people about hwritten hworks =>
    have hworking : Kept (s.working n (.acting (rest.map (Act.about about)) gone)) := by
      refine h.working (fun acts gone' heq => ?_) fun acts gone' hacts hshut => ?_
      · rw [Work.acting.injEq] at heq
        obtain ⟨rfl, rfl⟩ := heq
        exact ⟨hpaired.about about, fun c hc => .inl (hgone c hc)⟩
      · rw [hshuts acts gone' hacts] at hshut
        cases hshut
    refine { hworking with
      works := hworking.still rfl rfl rfl rfl, opens := fun hlocked hshutting => ?_ }
    · -- A home that shut its open seats before still does.
      have hstays : ¬ Shutting s := by
        refine fun hbefore => hshutting (hbefore.mono (n := n) (fun m hm => ?_) ?_)
        · exact (Map.get_insert _ _ _ _).trans (if_neg hm)
        · intro acts gone' hacts hshut
          rw [hshuts acts gone' hacts] at hshut
          cases hshut
      by_cases hbefore : s.people.locked = true
      · exact h.opens hbefore hstays
      · rw [Bool.not_eq_true] at hbefore
        have hlocked : people.locked = true := hlocked
        have hnow : locks x s write = true := by
          simp [locks, hbefore, hwritten, hlocked]
        cases write with
        | edit call hash => exact (hlocks call hash rfl hnow).resolve_right hstays
        | removal id =>
          simp only [Hall.written] at hwritten
          cases hedit : s.people.edit (removed id) with
          | error message =>
            rw [hedit] at hwritten
            cases hwritten
          | ok made =>
            rw [hedit] at hwritten
            cases hwritten
            rw [locked_of_removed hedit hlocked] at hbefore
            cases hbefore
        | owner name hash fresh =>
          refine absurd (shutting_iff.mpr ⟨n, _, gone, Map.get_insert_self _ _ _, ?_⟩) hshutting
          exact shuts_about (h.works n _ gone hn).1.1
  · exact h.answer hgone hshuts

lemma paired_edit (x : Crypto) (s : Hall) (call : EditCall) (rooms : Bool) (hash : Option String)
    (locks : Bool) : Paired s (s.editActs x call rooms hash locks) := by
  unfold Hall.editActs
  split_ifs <;> simp [Paired, ClosesTokens, ClosesSessions]

lemma paired_removal (s : Hall) (id : UserId) : Paired s (Hall.removalActs id) := by
  simp [Hall.removalActs, Paired, ClosesTokens, ClosesSessions]

lemma paired_owner (s : Hall) (name hash : String) (fresh : UserId) :
    Paired s (Hall.ownerActs name hash fresh) := by
  simp [Hall.ownerActs, Paired, ClosesTokens, ClosesSessions, shuts, sure]

lemma paired_signOut (s : Hall) (hash : String) :
    Paired s [.forget (.one hash), .close (.session hash)] := by
  simp [Paired, ClosesSessions]

lemma Kept.paired_revoke (h : Kept s) {id : TokenId} {hash : String}
    (hid : s.tokenWith id = some hash) :
    Paired s [.dropTokens (.one hash), .close (.token id)] := by
  obtain ⟨⟨other, token⟩, hfind, rfl⟩ := Option.map_eq_some_iff.mp hid
  have hmem := List.mem_of_find?_eq_some hfind
  have htoken : s.tokens[other]? = some token :=
    Std.ExtTreeMap.mem_toList_iff_getElem?_eq_some.mp hmem
  refine ⟨⟨.token id, [], rfl, h.issued other token htoken, fun found hfound => ?_⟩, trivial⟩
  have hsame : token = found := Option.some.inj (htoken.symm.trans hfound)
  rw [← hsame]
  simpa using List.find?_some hfind

lemma Kept.sets (h : Kept s) {before work : Work} (hn : s.works[n]? = some before)
    (hbefore : ∀ (acts : List Act) (gone : List Credential), before ≠ .acting acts gone)
    (hwork : ∀ (acts : List Act) (gone : List Credential), work = .acting acts gone →
      Paired s acts ∧ gone = []) : Kept (s.working n work) := by
  refine h.working (fun acts gone heq => ?_) fun acts gone hacts _ => ?_
  · obtain ⟨hpaired, rfl⟩ := hwork acts gone heq
    exact ⟨hpaired, fun c hc => nomatch hc⟩
  · exact absurd (Option.some.inj (hn.symm.trans hacts)) (hbefore acts gone)

lemma Kept.refuse (h : Kept s) {before : Work} (hn : s.works[n]? = some before)
    (hbefore : ∀ (acts : List Act) (gone : List Credential), before ≠ .acting acts gone) :
    Kept (s.answer n []) :=
  h.answer (fun _ hc => nomatch hc) fun acts gone hacts =>
    absurd (Option.some.inj (hn.symm.trans hacts)) (hbefore acts gone)

lemma Kept.goAsked (h : Kept s) {ask : Ousting} (hn : s.works[n]? = some (.asked ask))
    (luck : Luck) : Kept (s.goAsked x n luck ask) := by
  have hrefuse : Kept (s.answer n []) := h.refuse hn (fun _ _ heq => nomatch heq)
  have hsets : ∀ {acts : List Act}, Paired s acts → Kept (s.working n (.acting acts [])) := by
    intro acts hpaired
    refine h.sets hn (fun _ _ heq => nomatch heq) fun acts' gone heq => ?_
    rw [Work.acting.injEq] at heq
    exact ⟨heq.1 ▸ hpaired, heq.2.symm⟩
  cases ask with
  | signOut cookie =>
    cases cookie with
    | none => exact hrefuse
    | some token => exact hsets (paired_signOut s _)
  | editUser call rooms =>
    unfold Hall.goAsked
    dsimp only
    split
    · exact h.sets hn (fun _ _ heq => nomatch heq) (fun _ _ heq => nomatch heq)
    · exact hrefuse
  | removeUser id =>
    unfold Hall.goAsked
    dsimp only
    split
    · exact hsets (paired_removal s id)
    · exact hrefuse
  | revoke id =>
    unfold Hall.goAsked
    dsimp only
    split
    · next hid => exact hsets (h.paired_revoke hid)
    · exact hrefuse
  | setUp name password =>
    unfold Hall.goAsked
    dsimp only
    split
    · split
      · exact hsets (paired_owner s name _ _)
      · exact hrefuse
    · exact hrefuse

lemma Kept.goWork (h : Kept s) {work : Work} (hn : s.works[n]? = some work) (luck : Luck)
    (hlocks : ∀ (call : EditCall) (hash : Option String) (rest : List Act)
      (gone : List Credential), work = .acting (.write (.edit call hash) :: rest) gone →
        locks x s (.edit call hash) = true →
          (∀ seat ∈ s.seats, seat.kind = .open_ → seat.told = true) ∨ Shutting s) :
    Kept (s.goWork x n luck work) := by
  cases work with
  | asked ask => exact h.goAsked hn luck
  | hashing call rooms =>
    unfold Hall.goWork
    dsimp only
    split
    · exact h.sets hn (fun _ _ heq => nomatch heq) (fun _ _ heq => nomatch heq)
    · split
      · exact h.sets hn (fun _ _ heq => nomatch heq) (fun _ _ heq => nomatch heq)
      · exact h.refuse hn (fun _ _ heq => nomatch heq)
  | refusing call rooms hash locks =>
    unfold Hall.goWork
    dsimp only
    split
    · refine h.sets hn (fun _ _ heq => nomatch heq) fun acts gone heq => ?_
      rw [Work.acting.injEq] at heq
      exact ⟨heq.1 ▸ paired_edit x s call rooms hash locks, heq.2.symm⟩
    · exact h.refuse hn (fun _ _ heq => nomatch heq)
  | acting acts gone =>
    cases acts with
    | nil =>
      refine h.answer (fun c hc => ?_) fun acts gone' hacts => ?_
      · rcases (h.works n _ gone hn).2 c hc with hclosed | ⟨closing, rest, heq, -⟩
        · exact hclosed
        · cases heq
      · rw [hn, Option.some.injEq, Work.acting.injEq] at hacts
        rw [← hacts.1]
        rfl
    | cons act rest =>
      cases act with
      | dropTokens which => exact h.dropTokens (x := x) hn luck
      | write write =>
        refine h.write hn luck fun call hash heq => ?_
        subst heq
        exact hlocks call hash rest gone rfl
      | forget which => exact h.forget (x := x) hn luck
      | close which => exact h.close (x := x) hn luck
      | begin_ user => exact h.begin_ hn luck

lemma Kept.goOpening (h : Kept s) {stage : Opening}
    (hstage : match stage with
      | .seating kind admitted =>
        (match admitted with
          | some c => Names c kind ∧ c ∉ s.closed
          | none => True) ∧ (kind = .open_ → s.people.locked = false ∨ Shutting s)
      | _ => True) : Kept (s.goOpening x n stage) := by
  have hopening : ∀ stage : Opening, Kept (s.opening n stage) := fun stage =>
    { h with works := h.still rfl rfl rfl rfl }
  cases stage with
  | asked visit => exact hopening _
  | checking visit people =>
    unfold Hall.goOpening
    dsimp only
    split
    · exact hopening _
    · exact { h with works := h.still rfl rfl rfl rfl }
  | guarded visit who =>
    unfold Hall.goOpening
    dsimp only
    split
    · exact hopening _
    · exact hopening _
  | deciding visit who locked => exact hopening _
  | seating kind admitted =>
    obtain ⟨hnames, hopen⟩ := hstage
    constructor
    · intro seat hseat c hc
      rcases List.mem_append.mp hseat with hseat | hseat
      · exact h.seats seat hseat c hc
      · rw [List.mem_singleton] at hseat
        subst hseat
        have hc : admitted = some c := hc
        rw [hc] at hnames
        exact .inr hnames
    · exact h.still rfl rfl rfl rfl
    · exact h.answered
    · exact h.issued
    · intro hlocked hshutting seat hseat hkind
      rcases List.mem_append.mp hseat with hseat | hseat
      · exact h.opens hlocked hshutting seat hseat hkind
      · rw [List.mem_singleton] at hseat
        subst hseat
        rcases hopen hkind with hunlocked | hbefore
        · have hlocked : s.people.locked = true := hlocked
          rw [hunlocked] at hlocked
          cases hlocked
        · exact absurd hbefore hshutting

lemma Kept.after {event : HallEvent} (h : Kept s) (ho : Orderly x s event) :
    Kept (s.after x event) := by
  cases event with
  | visit n visit =>
    unfold Hall.after
    dsimp only
    split
    · exact h
    · exact { h with works := h.still rfl rfl rfl rfl }
  | goOpening n =>
    dsimp only [Orderly] at ho
    unfold Hall.after
    dsimp only
    cases hstage : s.openings[n]? with
    | none => exact h
    | some stage =>
      rw [hstage] at ho
      refine h.goOpening ?_
      cases stage with
      | seating kind admitted => exact ho
      | _ => trivial
  | ask n ask =>
    unfold Hall.after
    dsimp only
    split
    · exact h
    · next hnew =>
      have hnone : s.works[n]? = none := by
        rw [Std.ExtTreeMap.contains_eq_isSome_getElem?, Bool.not_eq_true,
          Option.isSome_eq_false_iff, Option.isNone_iff_eq_none] at hnew
        exact hnew
      refine h.working (fun _ _ heq => nomatch heq) fun acts gone hacts => ?_
      rw [hnone] at hacts
      cases hacts
  | goWork n luck =>
    dsimp only [Orderly] at ho
    unfold Hall.after
    dsimp only
    cases hwork : s.works[n]? with
    | none => exact h
    | some work =>
      rw [hwork] at ho
      refine h.goWork hwork luck fun call hash rest gone heq => ?_
      subst heq
      exact ho
  | leave i =>
    have hseats : ∀ seat ∈ s.seats.eraseIdx i, seat ∈ s.seats :=
      fun seat => List.mem_of_mem_eraseIdx
    exact { h with
      seats := fun seat hseat => h.seats seat (hseats seat hseat)
      works := h.still rfl rfl rfl rfl
      opens := fun hlocked hshutting seat hseat =>
        h.opens hlocked hshutting seat (hseats seat hseat) }
  | begin_ user drawn =>
    exact { h with works := h.still rfl rfl rfl rfl }
  | issue secret token =>
    unfold Hall.after
    dsimp only
    split
    · exact h
    · next hfresh =>
      rw [List.contains_iff_mem] at hfresh
      have htokens : ∀ (hash : String) (found : AccessToken),
          (s.tokens.insert (x.fingerprint secret) token)[hash]? = some found →
            hash ∈ s.issued → s.tokens[hash]? = some found := by
        intro hash found hfound hissued
        rcases Map.get_insert_some hfound with ⟨rfl, -⟩ | ⟨-, hfound⟩
        · exact absurd hissued hfresh
        · exact hfound
      refine { h with works := fun m acts gone hm => ?_, issued := fun hash found hfound => ?_ }
      · obtain ⟨hpaired, hgone⟩ := h.works m acts gone hm
        exact ⟨hpaired.congr (fun _ hi => List.mem_cons_of_mem _ hi)
          fun hash hi found hfound => htokens hash found hfound hi, hgone⟩
      · rcases Map.get_insert_some hfound with ⟨rfl, -⟩ | ⟨-, hfound⟩
        · exact List.mem_cons_self
        · exact List.mem_cons_of_mem _ (h.issued hash found hfound)
  | clock now =>
    exact { h with works := h.still rfl rfl rfl rfl }
  | expire =>
    exact { h with works := h.still rfl rfl rfl rfl }

lemma Kept.afterAll {events : List HallEvent} (h : Kept s) (ho : All x (Orderly x) s events) :
    Kept (s.afterAll x events) := by
  induction events generalizing s with
  | nil => exact h
  | cons event events ih => exact ih (h.after ho.1) ho.2

/-- No live socket outlives what let it in, in a run where every seat still names what it was let in
on as it is taken, and no seat is open where a home starts to ask who is there. -/
theorem noneOutlives_of_orderly {x : Crypto} {people : People} {sessions : Map String Session}
    {tokens : Map String AccessToken} {now : Nat} {events : List HallEvent}
    (h : All x (Orderly x) (Hall.start people sessions tokens now) events) :
    NoneOutlives ((Hall.start people sessions tokens now).afterAll x events) :=
  ((kept_start people sessions tokens now).afterAll h).noneOutlives

instance (x : Crypto) (s : Hall) (event : HallEvent) : Decidable (Orderly x s event) := by
  unfold Orderly
  repeat' split
  all_goals infer_instance

instance decidableAll {x : Crypto} {p : Hall → HallEvent → Prop} [∀ s event, Decidable (p s event)] :
    (s : Hall) → (events : List HallEvent) → Decidable (All x p s events)
  | _, [] => inferInstanceAs (Decidable True)
  | s, event :: events =>
    have := decidableAll (x := x) (p := p) (s.after x event) events
    inferInstanceAs (Decidable (p s event ∧ All x p (s.after x event) events))

def annSignedIn : Hall :=
  .start annsHome (Std.ExtTreeMap.empty.insert "first" ⟨ann, sessionLife⟩) ∅ 0

def annOpens : List HallEvent :=
  [.visit 0 ⟨false, none, some "first"⟩, .goOpening 0, .goOpening 0]

def annIsSeated : List HallEvent := [.goOpening 0, .goOpening 0, .goOpening 0]

def annSignsOut : List HallEvent :=
  [.ask 0 (.signOut (some "first"))] ++ List.replicate 4 (.goWork 0 (lucky ""))

theorem noneOutlives_annSignsOut :
    NoneOutlives (annSignedIn.afterAll plainCrypto (annOpens ++ annIsSeated ++ annSignsOut)) ∧
      (annSignedIn.afterAll plainCrypto (annOpens ++ annIsSeated ++ annSignsOut)).seats =
        [⟨.session "first" ann, true, some (.session "first" ann)⟩] ∧
      (annSignedIn.afterAll plainCrypto (annOpens ++ annIsSeated ++ annSignsOut)).answered =
        [.session "first" ann] :=
  ⟨noneOutlives_of_orderly (by decide), by decide, by decide⟩

/-- Ann signs out between the guard and the seat: the socket is open, and never told to close. -/
theorem not_noneOutlives_between :
    (annSignedIn.afterAll plainCrypto (annOpens ++ annSignsOut ++ annIsSeated)).seats =
        [⟨.open_, false, some (.session "first" ann)⟩] ∧
      ¬ NoneOutlives
        (annSignedIn.afterAll plainCrypto (annOpens ++ annSignsOut ++ annIsSeated)) := by
  have hseats : (annSignedIn.afterAll plainCrypto (annOpens ++ annSignsOut ++ annIsSeated)).seats =
      [⟨.open_, false, some (.session "first" ann)⟩] := by decide +kernel
  have hanswered : Credential.session "first" ann ∈
      (annSignedIn.afterAll plainCrypto (annOpens ++ annSignsOut ++ annIsSeated)).answered := by
    decide
  refine ⟨hseats, fun h => ?_⟩
  have htold := h.ended ⟨.open_, false, some (.session "first" ann)⟩
    (by rw [hseats]; exact List.mem_singleton_self _) _ rfl hanswered
  cases htold

end Hall

end Irori.Proofs

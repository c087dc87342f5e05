import Irori.Server.Attempts

/-!
# Guessing takes time

Five tries in a row and then a wait, whatever others do in between: being forgotten to make room
takes longer than the wait. Who was told to wait is let through after that, unless they stayed away
until they were forgotten and there is no room for anybody new.
-/

namespace Irori.Server.Attempts

variable {τ : Type} [LinearOrder τ] {attempts : Map τ Attempts} {who : τ} {now : ℕ}

lemma get_recent (x : τ) : (recent attempts now)[x]? =
    (attempts[x]?).filter fun kept => decide (now - kept.last < forgetAfter) := by
  unfold recent
  rw [Std.ExtTreeMap.getElem?_filter']

variable (now) in
lemma tryNow_kept {kept : Attempts} (h : attempts[who]? = some kept) :
    (tries ≤ kept.failed ∧ now - kept.last ≤ lockout ∧
      tryNow attempts who now = (attempts, .error (lockout - (now - kept.last)))) ∨
    (tries ≤ kept.failed ∧ lockout < now - kept.last ∧
      tryNow attempts who now = (attempts.insert who ⟨1, now⟩, .ok ())) ∨
    (kept.failed < tries ∧
      tryNow attempts who now = (attempts.insert who ⟨kept.failed + 1, now⟩, .ok ())) := by
  unfold tryNow
  rw [h]
  dsimp only
  split
  · next hmany =>
    split
    · next hsoon => exact .inl ⟨hmany, hsoon, rfl⟩
    · next hlate => exact .inr (.inl ⟨hmany, by omega, rfl⟩)
  · next hfew => exact .inr (.inr ⟨by omega, rfl⟩)

variable (now) in
lemma tryNow_new (h : attempts[who]? = none) :
    (maxTriers ≤ attempts.size ∧ maxTriers ≤ (recent attempts now).size ∧
      tryNow attempts who now = (recent attempts now, .error lockout)) ∨
    (maxTriers ≤ attempts.size ∧ (recent attempts now).size < maxTriers ∧
      tryNow attempts who now = ((recent attempts now).insert who ⟨1, now⟩, .ok ())) ∨
    (attempts.size < maxTriers ∧
      tryNow attempts who now = (attempts.insert who ⟨1, now⟩, .ok ())) := by
  unfold tryNow
  rw [h]
  dsimp only
  split
  · next hfull =>
    split
    · next hstill => exact .inl ⟨hfull, hstill, rfl⟩
    · next hroom => exact .inr (.inl ⟨hfull, by omega, rfl⟩)
  · next hroom => exact .inr (.inr ⟨by omega, rfl⟩)

lemma step_tryNow : step attempts (now, .tryNow who) = (tryNow attempts who now).1 := rfl

variable (attempts now) in
lemma step_else {x : τ} {call : Call τ} (htry : call ≠ .tryNow x) (hin : call ≠ .gotIn x) :
    (step attempts (now, call))[x]? = attempts[x]? ∨
      (step attempts (now, call))[x]? = (recent attempts now)[x]? := by
  cases call with
  | tryNow y =>
    have hne : y ≠ x := fun h => htry (congrArg Call.tryNow h)
    have hinsert : ∀ (m : Map τ Attempts) v, (m.insert y v)[x]? = m[x]? := fun m v => by
      rw [Map.get_insert, if_neg hne]
    unfold step
    dsimp only
    cases hy : attempts[y]? with
    | some other =>
      rcases tryNow_kept now hy with ⟨-, -, heq⟩ | ⟨-, -, heq⟩ | ⟨-, heq⟩ <;> rw [heq]
      · exact .inl rfl
      · exact .inl (hinsert _ _)
      · exact .inl (hinsert _ _)
    | none =>
      rcases tryNow_new now hy with ⟨-, -, heq⟩ | ⟨-, -, heq⟩ | ⟨-, heq⟩ <;> rw [heq]
      · exact .inr rfl
      · exact .inr (hinsert _ _)
      · exact .inl (hinsert _ _)
  | gotIn y =>
    have hne : y ≠ x := fun h => hin (congrArg Call.gotIn h)
    unfold step gotIn
    dsimp only
    rw [Map.get_erase, if_neg hne]
    exact .inl rfl

lemma step_other {x : τ} {kept : Attempts} {call : Call τ} (hx : attempts[x]? = some kept)
    (hlately : now - kept.last < forgetAfter) (htry : call ≠ .tryNow x) (hin : call ≠ .gotIn x) :
    (step attempts (now, call))[x]? = some kept := by
  rcases step_else attempts now htry hin with hsame | hrecent
  · exact hsame.trans hx
  · rw [hrecent, get_recent, hx, Option.filter_some, if_pos (decide_eq_true hlately)]

lemma size_step (h : attempts.size ≤ maxTriers) (call : ℕ × Call τ) :
    (step attempts call).size ≤ maxTriers := by
  obtain ⟨now, call⟩ := call
  cases call with
  | tryNow who =>
    unfold step
    dsimp only
    have hrecent : (recent attempts now).size ≤ attempts.size := Std.ExtTreeMap.size_filter_le_size
    cases hwho : attempts[who]? with
    | some kept =>
      have hmem : who ∈ attempts := by
        rw [Std.ExtTreeMap.mem_iff_isSome_getElem?, hwho]
        rfl
      have hsame : ∀ v, (attempts.insert who v).size = attempts.size := fun v => by
        rw [Std.ExtTreeMap.size_insert, if_pos (Std.ExtTreeMap.mem_iff_contains.mp hmem)]
      rcases tryNow_kept now hwho with ⟨-, -, heq⟩ | ⟨-, -, heq⟩ | ⟨-, heq⟩ <;> rw [heq]
      · exact h
      · exact (hsame _).le.trans h
      · exact (hsame _).le.trans h
    | none =>
      rcases tryNow_new now hwho with ⟨-, -, heq⟩ | ⟨-, hroom, heq⟩ | ⟨hroom, heq⟩ <;>
        rw [heq]
      · exact hrecent.trans h
      · exact Std.ExtTreeMap.size_insert_le.trans hroom
      · exact Std.ExtTreeMap.size_insert_le.trans hroom
  | gotIn who => exact Std.ExtTreeMap.size_erase_le.trans h

/-- At least so many tries are counted against somebody, the last no earlier than a time. -/
def Counted (attempts : Map τ Attempts) (who : τ) (failed since : ℕ) : Prop :=
  ∃ kept, attempts[who]? = some kept ∧ failed ≤ kept.failed ∧ since ≤ kept.last

variable {failed since : ℕ}

lemma tryNow_counted (h : Counted attempts who failed since) (hsince : since ≤ now)
    (hsoon : now < since + lockout) (hlet : (tryNow attempts who now).2 = .ok ()) :
    Counted (tryNow attempts who now).1 who (failed + 1) since ∧ failed < tries := by
  obtain ⟨kept, hwho, hfailed, hlast⟩ := h
  rcases tryNow_kept now hwho with ⟨-, -, heq⟩ | ⟨-, hlate, -⟩ | ⟨hfew, heq⟩
  · rw [heq] at hlet
    cases hlet
  · omega
  · rw [heq]
    refine ⟨⟨⟨kept.failed + 1, now⟩, ?_, by dsimp only; omega, hsince⟩, by omega⟩
    rw [Map.get_insert, if_pos rfl]

lemma tryNow_first (hlet : (tryNow attempts who now).2 = .ok ()) :
    Counted (tryNow attempts who now).1 who 1 now := by
  have hinsert : ∀ (m : Map τ Attempts) n, 1 ≤ n → Counted (m.insert who ⟨n, now⟩) who 1 now :=
    fun m n hn => ⟨⟨n, now⟩, by rw [Map.get_insert, if_pos rfl], hn, le_rfl⟩
  cases hwho : attempts[who]? with
  | some kept =>
    rcases tryNow_kept now hwho with ⟨-, -, heq⟩ | ⟨-, -, heq⟩ | ⟨-, heq⟩ <;>
      rw [heq] at hlet ⊢
    · cases hlet
    · exact hinsert _ _ le_rfl
    · exact hinsert _ _ (Nat.le_add_left _ _)
  | none =>
    rcases tryNow_new now hwho with ⟨-, -, heq⟩ | ⟨-, -, heq⟩ | ⟨-, heq⟩ <;>
      rw [heq] at hlet ⊢
    · cases hlet
    · exact hinsert _ _ le_rfl
    · exact hinsert _ _ le_rfl

lemma step_counted {call : Call τ} (h : Counted attempts who failed since) (hsince : since ≤ now)
    (hsoon : now < since + lockout) (hin : call ≠ .gotIn who) :
    Counted (step attempts (now, call)) who failed since := by
  by_cases htry : call = .tryNow who
  · subst htry
    obtain ⟨kept, hwho, hfailed, hlast⟩ := h
    unfold step
    dsimp only
    rcases tryNow_kept now hwho with ⟨-, -, heq⟩ | ⟨-, hlate, -⟩ | ⟨-, heq⟩
    · rw [heq]
      exact ⟨kept, hwho, hfailed, hlast⟩
    · omega
    · rw [heq]
      refine ⟨⟨kept.failed + 1, now⟩, ?_, by dsimp only; omega, hsince⟩
      rw [Map.get_insert, if_pos rfl]
  · obtain ⟨kept, hwho, hfailed, hlast⟩ := h
    have hlately : now - kept.last < forgetAfter := by
      simp only [lockout, forgetAfter] at hsoon ⊢
      omega
    exact ⟨kept, step_other hwho hlately htry hin, hfailed, hlast⟩

lemma step_last {x : τ} {kept : Attempts} {call : Call τ}
    (h : (step attempts (now, call))[x]? = some kept) :
    attempts[x]? = some kept ∨ kept.last = now := by
  have hrecent : (recent attempts now)[x]? = some kept → attempts[x]? = some kept := fun hx => by
    rw [get_recent] at hx
    exact (Option.filter_eq_some_iff.mp hx).1
  have hinsert : ∀ (m : Map τ Attempts) y n, (m.insert y ⟨n, now⟩)[x]? = some kept →
      m[x]? = some kept ∨ kept.last = now := by
    intro m y n hm
    rw [Map.get_insert] at hm
    split at hm
    · exact .inr (by rw [← Option.some.inj hm])
    · exact .inl hm
  cases call with
  | tryNow y =>
    unfold step at h
    dsimp only at h
    cases hy : attempts[y]? with
    | some other =>
      rcases tryNow_kept now hy with ⟨-, -, heq⟩ | ⟨-, -, heq⟩ | ⟨-, heq⟩ <;> rw [heq] at h
      · exact .inl h
      · exact hinsert _ _ _ h
      · exact hinsert _ _ _ h
    | none =>
      rcases tryNow_new now hy with ⟨-, -, heq⟩ | ⟨-, -, heq⟩ | ⟨-, heq⟩ <;> rw [heq] at h
      · exact .inl (hrecent h)
      · exact (hinsert _ _ _ h).imp_left hrecent
      · exact hinsert _ _ _ h
  | gotIn y =>
    unfold step gotIn at h
    dsimp only at h
    rw [Map.get_erase] at h
    split at h
    · cases h
    · exact .inl h

lemma step_quiet {x : τ} {call : Call τ}
    (htry : call = .tryNow x → (tryNow attempts x now).2 ≠ .ok ()) (hin : call ≠ .gotIn x) :
    (step attempts (now, call))[x]? = attempts[x]? ∨
      (step attempts (now, call))[x]? = none ∧
        ∀ kept, attempts[x]? = some kept → kept.last + forgetAfter ≤ now := by
  by_cases hown : call = .tryNow x
  · have hrefused := htry hown
    subst hown
    unfold step
    dsimp only
    cases hx : attempts[x]? with
    | some kept =>
      rcases tryNow_kept now hx with ⟨-, -, heq⟩ | ⟨-, -, heq⟩ | ⟨-, heq⟩ <;>
        rw [heq] at hrefused ⊢
      · exact .inl hx
      · exact absurd rfl hrefused
      · exact absurd rfl hrefused
    | none =>
      rcases tryNow_new now hx with ⟨-, -, heq⟩ | ⟨-, -, heq⟩ | ⟨-, heq⟩ <;>
        rw [heq] at hrefused ⊢
      · exact .inl (by rw [get_recent, hx]; rfl)
      · exact absurd rfl hrefused
      · exact absurd rfl hrefused
  · rcases step_else attempts now hown hin with hsame | hrecent
    · exact .inl hsame
    · rw [hrecent, get_recent]
      cases attempts[x]? with
      | none => exact .inl rfl
      | some kept =>
        by_cases hlately : now - kept.last < forgetAfter
        · exact .inl (by rw [Option.filter_some, if_pos (decide_eq_true hlately)])
        · refine .inr ⟨by rw [Option.filter_some, if_neg (by simpa using hlately)], ?_⟩
          intro other hother
          obtain rfl := Option.some.inj hother
          have hpos : 0 < forgetAfter := by decide
          omega

variable {calls : List (ℕ × Call τ)}

def LetThrough (calls : List (ℕ × Call τ)) (n : ℕ) (who : τ) : Prop :=
  ∃ now, calls[n]? = some (now, .tryNow who) ∧ (tryNow (after calls n) who now).2 = .ok ()

lemma after_succ {n : ℕ} {call : ℕ × Call τ} (h : calls[n]? = some call) :
    after calls (n + 1) = step (after calls n) call := by
  unfold after
  rw [List.take_add_one, h, Option.toList_some, List.foldl_append]
  rfl

lemma after_none {n : ℕ} (h : calls[n]? = none) : after calls (n + 1) = after calls n := by
  have hlen : calls.length ≤ n := List.getElem?_eq_none_iff.mp h
  unfold after
  rw [List.take_of_length_le (by omega), List.take_of_length_le hlen]

lemma size_after (calls : List (ℕ × Call τ)) (n : ℕ) : (after calls n).size ≤ maxTriers := by
  induction n with
  | zero => simp [after]
  | succ n ih =>
    cases hcall : calls[n]? with
    | none => exact after_none hcall ▸ ih
    | some call => exact after_succ hcall ▸ size_step ih call

omit [LinearOrder τ] in
lemma time_le (hsorted : calls.Pairwise (·.1 ≤ ·.1)) {i j : ℕ} {a b : ℕ × Call τ}
    (ha : calls[i]? = some a) (hb : calls[j]? = some b) (hij : i ≤ j) : a.1 ≤ b.1 := by
  obtain ⟨hi, rfl⟩ := List.getElem?_eq_some_iff.mp ha
  obtain ⟨hj, rfl⟩ := List.getElem?_eq_some_iff.mp hb
  rcases Nat.eq_or_lt_of_le hij with rfl | hlt
  · exact le_rfl
  · exact List.pairwise_iff_getElem.mp hsorted i j hi hj hlt

lemma last_le (hsorted : calls.Pairwise (·.1 ≤ ·.1)) {n : ℕ} {call : ℕ × Call τ}
    (hn : calls[n]? = some call) {x : τ} {kept : Attempts} (hx : (after calls n)[x]? = some kept) :
    kept.last ≤ call.1 := by
  induction n generalizing call with
  | zero => simp [after] at hx
  | succ n ih =>
    obtain ⟨before, hbefore⟩ : ∃ before, calls[n]? = some before := by
      have hlen := (List.getElem?_eq_some_iff.mp hn).1
      exact ⟨calls[n], List.getElem?_eq_getElem (by omega)⟩
    have hle := time_le hsorted hbefore hn (Nat.le_succ n)
    rw [after_succ hbefore] at hx
    rcases step_last hx with hx | hnow
    · exact (ih hbefore hx).trans hle
    · exact hnow.trans_le hle

lemma counted_run {n m : ℕ} (hnm : n ≤ m)
    (h : Counted (after calls n) who failed since)
    (hcalls : ∀ j, n ≤ j → j < m → ∀ call, calls[j]? = some call →
      since ≤ call.1 ∧ call.1 < since + lockout ∧ call.2 ≠ .gotIn who) :
    Counted (after calls m) who failed since := by
  induction m, hnm using Nat.le_induction with
  | base => exact h
  | succ m hnm ih =>
    have hm := ih fun j hj hlt => hcalls j hj (by omega)
    cases hcall : calls[m]? with
    | none => exact after_none hcall ▸ hm
    | some call =>
      obtain ⟨hsince, hsoon, hin⟩ := hcalls m hnm (Nat.lt_succ_self m) call hcall
      exact after_succ hcall ▸ step_counted hm hsince hsoon hin

lemma six_span (hsorted : calls.Pairwise (·.1 ≤ ·.1)) {ks : Fin 6 → ℕ} (hmono : StrictMono ks)
    (hlet : ∀ i, LetThrough calls (ks i) who)
    (hin : ∀ j, ks 0 < j → j < ks 5 → ∀ now, calls[j]? ≠ some (now, .gotIn who)) {a b : ℕ × Call τ}
    (ha : calls[ks 0]? = some a) (hb : calls[ks 5]? = some b) : a.1 + lockout ≤ b.1 := by
  by_contra hsoon
  have hcalls : ∀ j, ks 0 < j → j < ks 5 → ∀ call, calls[j]? = some call →
      a.1 ≤ call.1 ∧ call.1 < a.1 + lockout ∧ call.2 ≠ .gotIn who := by
    intro j h0 h5 call hcall
    have hle := time_le hsorted hcall hb (Nat.le_of_lt h5)
    refine ⟨time_le hsorted ha hcall (Nat.le_of_lt h0), by omega, fun hgot => ?_⟩
    exact hin j h0 h5 call.1 (by rw [hcall, ← hgot])
  -- After each of them one more is counted.
  have hnext : ∀ i : ℕ, (hi : i + 1 < 6) →
      Counted (after calls (ks ⟨i, by omega⟩ + 1)) who (i + 1) a.1 →
        Counted (after calls (ks ⟨i + 1, hi⟩ + 1)) who (i + 2) a.1 ∧ i + 1 < tries := by
    intro i hi hbefore
    have hlt : ks ⟨i, by omega⟩ < ks ⟨i + 1, hi⟩ := hmono (by simp [Fin.lt_def])
    have hfirst : ks 0 ≤ ks ⟨i, by omega⟩ := hmono.monotone (Fin.zero_le _)
    have hlast : ks ⟨i + 1, hi⟩ ≤ ks 5 := hmono.monotone (by
      rw [Fin.le_def]
      change i + 1 ≤ 5
      omega)
    obtain ⟨now, hcall, hok⟩ := hlet ⟨i + 1, hi⟩
    have hthere := counted_run (Nat.succ_le_of_lt hlt) hbefore fun j hj hjlt call hjcall =>
      hcalls j (by omega) (by omega) call hjcall
    have hsince := time_le hsorted ha hcall (by omega)
    have hsoon' := time_le hsorted hcall hb hlast
    dsimp only at hsince hsoon'
    have hcounted := tryNow_counted hthere hsince (by omega) hok
    refine ⟨?_, hcounted.2⟩
    rw [after_succ hcall]
    exact hcounted.1
  have hcounted : ∀ i : ℕ, (hi : i < 6) → Counted (after calls (ks ⟨i, hi⟩ + 1)) who (i + 1) a.1 := by
    intro i
    induction i with
    | zero =>
      intro hi
      obtain ⟨now, hcall, hok⟩ := hlet 0
      obtain rfl : a = (now, .tryNow who) := Option.some.inj (ha.symm.trans hcall)
      change Counted (after calls (ks 0 + 1)) who 1 now
      rw [after_succ hcall]
      exact tryNow_first hok
    | succ i ih =>
      intro hi
      exact (hnext i hi (ih (by omega))).1
  exact absurd (hnext 4 (by omega) (hcounted 4 (by omega))).2 (by decide)

/-- Who had to wait for their own tries is let through after that, unless they were forgotten and
there is no room. -/
lemma waited_through (hsorted : calls.Pairwise (·.1 ≤ ·.1)) {k m wait time time' : ℕ}
    (hk : calls[k]? = some (time, .tryNow who)) (hkept : ((after calls k)[who]?).isSome = true)
    (hwait : (tryNow (after calls k) who time).2 = .error wait) (hkm : k < m)
    (hm : calls[m]? = some (time', .tryNow who))
    (hquiet : ∀ j, k < j → j < m → ¬ LetThrough calls j who ∧
      ∀ now, calls[j]? ≠ some (now, .gotIn who))
    (hlate : time + wait < time') :
    LetThrough calls m who ∨ time + wait + (forgetAfter - lockout) ≤ time' ∧
      maxTriers ≤ (recent (after calls m) time').size := by
  obtain ⟨kept, hwho⟩ := Option.isSome_iff_exists.mp hkept
  have hlast := last_le hsorted hk hwho
  dsimp only at hlast
  obtain ⟨rfl, hrefused⟩ : wait = lockout - (time - kept.last) ∧ time - kept.last ≤ lockout := by
    rcases tryNow_kept time hwho with ⟨-, hsoon, heq⟩ | ⟨-, -, heq⟩ | ⟨-, heq⟩ <;>
      rw [heq] at hwait
    · exact ⟨(Except.error.inj hwait).symm, hsoon⟩
    · cases hwait
    · cases hwait
  -- Until then what is counted stays, or is forgotten.
  have hstays : ∀ j, k ≤ j → j ≤ m → (after calls j)[who]? = some kept ∨
      (after calls j)[who]? = none ∧ ∃ i call, i < j ∧ calls[i]? = some call ∧
        kept.last + forgetAfter ≤ call.1 := by
    intro j hkj
    induction j, hkj using Nat.le_induction with
    | base => exact fun _ => .inl hwho
    | succ j hkj ih =>
      intro hjm
      obtain ⟨call, hcall⟩ : ∃ call, calls[j]? = some call := by
        have hlen := (List.getElem?_eq_some_iff.mp hm).1
        exact ⟨calls[j], List.getElem?_eq_getElem (by omega)⟩
      have hnot : (call.2 = .tryNow who → (tryNow (after calls j) who call.1).2 ≠ .ok ()) ∧
          call.2 ≠ .gotIn who := by
        rcases Nat.eq_or_lt_of_le hkj with rfl | hkj
        · obtain rfl := Option.some.inj (hk.symm.trans hcall)
          exact ⟨fun _ hok => (by rw [hwait] at hok; cases hok), fun h => nomatch h⟩
        · refine ⟨fun htry hok => (hquiet j hkj (by omega)).1 ⟨call.1, ?_, hok⟩, fun hin => ?_⟩
          · rw [hcall, ← htry]
          · exact (hquiet j hkj (by omega)).2 call.1 (by rw [hcall, ← hin])
      rw [after_succ hcall]
      rcases step_quiet hnot.1 hnot.2 with hsame | ⟨hgone, hlong⟩
      · rw [show step (after calls j) (call.1, call.2) = step (after calls j) call from rfl] at hsame
        rw [hsame]
        exact (ih (by omega)).imp_right fun ⟨hnone, i, other, hi, hother⟩ =>
          ⟨hnone, i, other, by omega, hother⟩
      · refine .inr ⟨hgone, ?_⟩
        rcases ih (by omega) with hthere | ⟨-, i, other, hi, hother⟩
        · exact ⟨j, call, Nat.lt_succ_self j, hcall, hlong kept hthere⟩
        · exact ⟨i, other, by omega, hother⟩
  rcases hstays m (Nat.le_of_lt hkm) le_rfl with hthere | ⟨hnone, i, call, hi, hcall, hlong⟩
  · refine .inl ⟨time', hm, ?_⟩
    rcases tryNow_kept time' hthere with ⟨-, hsoon, -⟩ | ⟨-, -, heq⟩ | ⟨-, heq⟩
    · omega
    · rw [heq]
    · rw [heq]
  · have hle := time_le hsorted hcall hm (Nat.le_of_lt hi)
    dsimp only at hle
    rcases tryNow_new time' hnone with ⟨-, hfull, -⟩ | ⟨-, -, heq⟩ | ⟨-, heq⟩
    · refine .inr ⟨?_, hfull⟩
      simp only [lockout, forgetAfter] at hrefused hlong ⊢
      omega
    · exact .inl ⟨time', hm, by rw [heq]⟩
    · exact .inl ⟨time', hm, by rw [heq]⟩

structure Guarded (calls : List (ℕ × Call τ)) : Prop where
  /-- Six tries of somebody who isn't let in between them take half a minute. -/
  span : ∀ (who : τ) (ks : Fin 6 → ℕ), StrictMono ks → (∀ i, LetThrough calls (ks i) who) →
    (∀ j, ks 0 < j → j < ks 5 → ∀ now, calls[j]? ≠ some (now, .gotIn who)) →
      ∀ a b, calls[ks 0]? = some a → calls[ks 5]? = some b → a.1 + 30 * 10 ^ 9 ≤ b.1
  few : ∀ n, (after calls n).size ≤ 1024
  /-- Who is kept count of and told to wait is let through after that, unless they stay away for ten
  minutes after their last counted try and the count is full of others then. -/
  waited : ∀ (who : τ) (k m wait time time' : ℕ), calls[k]? = some (time, .tryNow who) →
    ((after calls k)[who]?).isSome = true →
      (tryNow (after calls k) who time).2 = .error wait → k < m →
        calls[m]? = some (time', .tryNow who) →
          (∀ j, k < j → j < m → ¬ LetThrough calls j who ∧
            ∀ now, calls[j]? ≠ some (now, .gotIn who)) →
              time + wait < time' → LetThrough calls m who ∨
                time + wait + (forgetAfter - lockout) ≤ time' ∧
                  1024 ≤ (recent (after calls m) time').size
  /-- Who isn't is let through where there is room. -/
  room : ∀ (who : τ) (m time : ℕ), calls[m]? = some (time, .tryNow who) →
    (after calls m)[who]? = none → (recent (after calls m) time).size < 1024 →
      LetThrough calls m who

theorem guarded (hsorted : calls.Pairwise (·.1 ≤ ·.1)) : Guarded calls where
  span _ _ hmono hlet hin _ _ ha hb := six_span hsorted hmono hlet hin ha hb
  few n := size_after calls n
  waited _ _ _ _ _ _ hk hkept hwait hkm hm hquiet hlate :=
    waited_through hsorted hk hkept hwait hkm hm hquiet hlate
  room who m time hm hnone hroom := by
    rcases tryNow_new time hnone with ⟨-, hfull, -⟩ | ⟨-, -, heq⟩ | ⟨-, heq⟩
    · exact absurd hfull (by simpa [maxTriers] using hroom)
    · exact ⟨time, hm, by rw [heq]⟩
    · exact ⟨time, hm, by rw [heq]⟩

def insisting : List (ℕ × Call ℕ) :=
  [0, 1, 2, 3, 4, 20 * 10 ^ 9, 40 * 10 ^ 9].map fun now => (now, .tryNow 7)

theorem guarded_insisting : Guarded insisting := guarded (by decide)

def crowd : List (ℕ × Call ℕ) :=
  (List.range 1024).map (fun who => (0, .tryNow who)) ++
    [(0, .tryNow 1024), (31 * 10 ^ 9, .tryNow 1024)]

lemma crowd_at {n : ℕ} (hn : n < 1024) : crowd[n]? = some (0, .tryNow n) := by
  unfold crowd
  rw [List.getElem?_append_left (by simpa using hn), List.getElem?_map, List.getElem?_range hn]
  rfl

lemma after_crowd {n : ℕ} (hn : n ≤ 1024) : (after crowd n).size = n ∧
    ∀ who, (after crowd n)[who]? = if who < n then some ⟨1, 0⟩ else none := by
  induction n with
  | zero => exact ⟨by simp [after], fun who => by simp [after]⟩
  | succ n ih =>
    obtain ⟨hsize, hget⟩ := ih (by omega)
    have hnew : (after crowd n)[n]? = none := by rw [hget, if_neg (Nat.lt_irrefl n)]
    have hstep : after crowd (n + 1) = (after crowd n).insert n ⟨1, 0⟩ := by
      rw [after_succ (crowd_at (by omega))]
      unfold step
      dsimp only
      rcases tryNow_new 0 hnew with ⟨hfull, -⟩ | ⟨hfull, -⟩ | ⟨-, heq⟩
      · simp only [maxTriers] at hfull
        omega
      · simp only [maxTriers] at hfull
        omega
      · rw [heq]
    rw [hstep]
    refine ⟨?_, fun who => ?_⟩
    · have hout : n ∉ after crowd n := by
        rw [Std.ExtTreeMap.mem_iff_isSome_getElem?, hnew]
        simp
      rw [Std.ExtTreeMap.size_insert, if_neg (by simpa using hout), hsize]
    · rw [Map.get_insert, hget]
      by_cases heq : n = who
      · rw [if_pos heq, if_pos (by omega)]
      · rw [if_neg heq]
        exact if_congr (by omega) rfl rfl

lemma crowd_full {n now : ℕ} (hnow : now < forgetAfter)
    (h : after crowd n = after crowd 1024) : recent (after crowd n) now = after crowd n ∧
      (tryNow (after crowd n) 1024 now) = (after crowd n, .error lockout) := by
  obtain ⟨hsize, hget⟩ := after_crowd le_rfl
  have hsame : recent (after crowd n) now = after crowd n := by
    refine Std.ExtTreeMap.ext_getElem? fun who => ?_
    rw [get_recent, h, hget]
    split
    · rw [Option.filter_some, if_pos (decide_eq_true (by dsimp only; omega))]
    · rfl
  refine ⟨hsame, ?_⟩
  have hnew : (after crowd n)[1024]? = none := by rw [h, hget, if_neg (Nat.lt_irrefl _)]
  rcases tryNow_new now hnew with ⟨-, -, heq⟩ | ⟨-, hroom, -⟩ | ⟨hroom, -⟩
  · rw [heq, hsame]
  · rw [hsame, h, hsize] at hroom
    exact absurd hroom (by decide)
  · rw [h, hsize] at hroom
    exact absurd hroom (by decide)

lemma crowd_waits : (tryNow (after crowd 1024) 1024 0).2 = .error lockout := by
  rw [(crowd_full (show 0 < forgetAfter by decide) rfl).2]

lemma crowd_last : crowd[1024]? = some (0, .tryNow 1024) := by
  have hlen : ((List.range 1024).map fun who => ((0 : ℕ), Call.tryNow who)).length = 1024 := by
    rw [List.length_map, List.length_range]
  unfold crowd
  rw [List.getElem?_append_right hlen.le, hlen]
  rfl

lemma crowd_still : (tryNow (after crowd (1024 + 1)) 1024 (31 * 10 ^ 9)).2 = .error lockout := by
  have hstill : after crowd (1024 + 1) = after crowd 1024 := by
    rw [after_succ crowd_last, step_tryNow,
      (crowd_full (show 0 < forgetAfter by decide) rfl).2]
  rw [(crowd_full (by decide) hstill).2]

/-- Who is told to wait for want of room is told so again after that; and where somebody's wait is
just over they are told to wait no time at all. -/
theorem not_waited :
    ((tryNow (after crowd 1024) 1024 0).2 = .error lockout ∧
      (tryNow (after crowd 1025) 1024 (31 * 10 ^ 9)).2 = .error lockout) ∧
    ((tryNow (after insisting 5) 7 4).2 = .error lockout ∧
      (tryNow (after insisting 5) 7 (4 + lockout)).2 = .error 0) := by
  exact ⟨⟨crowd_waits, crowd_still⟩, by decide⟩

end Irori.Server.Attempts

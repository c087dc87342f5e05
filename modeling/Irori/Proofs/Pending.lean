import Irori.Protocol.Reports
import Irori.Lib.Index

/-!
# No report lost unseen

What goes into a report queue comes out in order, or is counted as dropped, as long as no value is
reported for an entity whose occurrences still wait.
-/

namespace Irori.Proofs
open Irori Irori.Core Protocol

variable {κ σ : Type}

def about (id : UniqueId) (reports : List (StateReport σ)) : List (StateReport σ) :=
  reports.filter fun report => decide (report.uniqueId = id)

def seen (channel : Channel σ) (id : UniqueId) : List (StateReport σ) :=
  about id (channel.handed ++ channel.popped.toList) ++ channel.queue.waiting id

structure Accounted (kinds : Kinds κ σ) (channel : Channel σ) : Prop where
  order : ∀ id : UniqueId, (seen channel id).Sublist (about id channel.pushed)
  occurrences : ∀ id : UniqueId,
    ((about id channel.pushed).filter (StateReport.isOccurrence kinds)).Perm
      ((seen channel id).filter (StateReport.isOccurrence kinds) ++
        (about id channel.counted).filter (StateReport.isOccurrence kinds))
  newest : ∀ (id : UniqueId) (value : StateReport σ),
    (about id channel.pushed).getLast? = some value → value.isOccurrence kinds = false →
      (seen channel id).getLast? = some value ∨ value ∈ channel.counted
  drops : channel.told + channel.queue.dropped = channel.counted.length

/-- No row of a queue is empty, and each has its own entity's reports. -/
def Filed (queue : ReportQueue σ) : Prop :=
  ∀ (id : UniqueId) (reports : List (StateReport σ)), queue.pending[id]? = some reports →
    reports ≠ [] ∧ ∀ report ∈ reports, report.uniqueId = id

section About

variable {id : UniqueId} {reports : List (StateReport σ)} {report : StateReport σ}

lemma about_append (id : UniqueId) (xs ys : List (StateReport σ)) :
    about id (xs ++ ys) = about id xs ++ about id ys := List.filter_append ..

lemma about_self (h : ∀ report ∈ reports, report.uniqueId = id) : about id reports = reports :=
  List.filter_eq_self.mpr fun report hreport => decide_eq_true (h report hreport)

lemma about_other (h : ∀ report ∈ reports, report.uniqueId ≠ id) : about id reports = [] :=
  List.filter_eq_nil_iff.mpr fun report hreport => by simpa using h report hreport

lemma about_append_own (xs : List (StateReport σ)) (h : ∀ report ∈ reports, report.uniqueId = id) :
    about id (xs ++ reports) = about id xs ++ reports := by
  rw [about_append, about_self h]

lemma about_append_other (xs : List (StateReport σ))
    (h : ∀ report ∈ reports, report.uniqueId ≠ id) : about id (xs ++ reports) = about id xs := by
  rw [about_append, about_other h, List.append_nil]

lemma about_take {queue : ReportQueue σ} (h : Filed queue) (id : UniqueId) :
    about id queue.take.1 = queue.waiting id := by
  have hrows : ∀ row ∈ queue.pending.toList, ∀ report ∈ row.2, report.uniqueId = row.1 :=
    fun row hrow => (h row.1 row.2 (Std.ExtTreeMap.mem_toList_iff_getElem?_eq_some.mp hrow)).2
  have hkeys : (queue.pending.toList.map Prod.fst).Nodup := by
    rw [Std.ExtTreeMap.map_fst_toList_eq_keys]
    exact (Std.ExtTreeMap.distinct_keys (t := queue.pending)).imp fun hne => by simpa using hne
  have hothers : ∀ rows : List (UniqueId × List (StateReport σ)),
      (∀ row ∈ rows, row ∈ queue.pending.toList ∧ row.1 ≠ id) →
        about id (rows.map Prod.snd).flatten = [] := by
    intro rows hrows'
    refine about_other fun report hreport => ?_
    obtain ⟨reports, hreports, hmem⟩ := List.mem_flatten.mp hreport
    obtain ⟨row, hrow, rfl⟩ := List.mem_map.mp hreports
    rw [hrows row (hrows' row hrow).1 report hmem]
    exact (hrows' row hrow).2
  unfold ReportQueue.take ReportQueue.waiting Map.vals
  cases hrow : queue.pending[id]? with
  | none =>
    refine hothers _ fun row hmem => ⟨hmem, fun heq => ?_⟩
    rw [← heq, Std.ExtTreeMap.mem_toList_iff_getElem?_eq_some.mp hmem] at hrow
    cases hrow
  | some reports =>
    have hmem := Std.ExtTreeMap.mem_toList_iff_getElem?_eq_some.mpr hrow
    obtain ⟨before, after, hsplit⟩ := List.append_of_mem hmem
    rw [hsplit, List.map_append, List.map_cons, List.nodup_append] at hkeys
    obtain ⟨-, hafter, hbefore⟩ := hkeys
    rw [List.nodup_cons] at hafter
    dsimp only
    rw [hsplit, List.map_append, List.map_cons, List.flatten_append, List.flatten_cons,
      about_append, about_append, about_self (hrows (id, reports) hmem), hothers before, hothers after]
    · simp
    · intro row hrow'
      refine ⟨hsplit ▸ List.mem_append_right _ (List.mem_cons_of_mem _ hrow'), fun heq => ?_⟩
      exact hafter.1 (List.mem_map.mpr ⟨row, hrow', heq⟩)
    · intro row hrow'
      refine ⟨hsplit ▸ List.mem_append_left _ hrow', fun heq => ?_⟩
      exact hbefore _ (List.mem_map_of_mem hrow') _ List.mem_cons_self heq

end About

section Queue

variable {kinds : Kinds κ σ} {queue : ReportQueue σ} {report : StateReport σ} {id : UniqueId}

lemma waiting_insert (queue : ReportQueue σ) (k id : UniqueId) (reports : List (StateReport σ))
    (dropped : Nat) :
    ReportQueue.waiting { pending := queue.pending.insert k reports, dropped } id =
      if k = id then reports else queue.waiting id := by
  unfold ReportQueue.waiting
  rw [Map.get_insert]
  split <;> rfl

lemma Filed.waiting (h : Filed queue) (id : UniqueId) :
    ∀ report ∈ queue.waiting id, report.uniqueId = id := by
  intro report hreport
  unfold ReportQueue.waiting at hreport
  cases hrow : queue.pending[id]? with
  | none =>
    rw [hrow] at hreport
    cases hreport
  | some reports =>
    rw [hrow] at hreport
    exact (h id reports hrow).2 report hreport

lemma Filed.insert (h : Filed queue) {reports : List (StateReport σ)} (hne : reports ≠ [])
    (hown : ∀ report ∈ reports, report.uniqueId = id) (dropped : Nat) :
    Filed { pending := queue.pending.insert id reports, dropped := dropped } := by
  intro k rows hrows
  rcases Map.get_insert_some hrows with ⟨rfl, rfl⟩ | ⟨-, hrows⟩
  · exact ⟨hne, hown⟩
  · exact h k rows hrows

lemma Filed.erase (h : Filed queue) (id : UniqueId) :
    Filed { queue with pending := queue.pending.erase id } := fun k rows hrows =>
  h k rows (Map.get_erase_some hrows).2

inductive Pushes (kinds : Kinds κ σ) (queue : ReportQueue σ) (report : StateReport σ) :
    List (StateReport σ) → List (StateReport σ) → Prop
  | dropped : Pushes kinds queue report (queue.waiting report.uniqueId) [report]
  | crowded (oldest : StateReport σ) (rest : List (StateReport σ))
      (occurrence : report.isOccurrence kinds = true)
      (full : queue.waiting report.uniqueId = oldest :: rest) :
      Pushes kinds queue report (rest ++ [report]) [oldest]
  | waits (occurrence : report.isOccurrence kinds = true) :
      Pushes kinds queue report (queue.waiting report.uniqueId ++ [report]) []
  | replaces (value : report.isOccurrence kinds = false) :
      Pushes kinds queue report [report] []

section Pushed

variable {after dropped came went lost : List (StateReport σ)}

lemma Pushes.order (h : Pushes kinds queue report after dropped)
    (horder : (came ++ queue.waiting report.uniqueId).Sublist went) :
    (came ++ after).Sublist (went ++ [report]) := by
  cases h with
  | dropped => exact horder.trans (List.sublist_append_left _ _)
  | crowded oldest rest _ full =>
    rw [full] at horder
    rw [← List.append_assoc]
    refine List.Sublist.append ?_ (List.Sublist.refl _)
    exact ((List.sublist_cons_self oldest rest).append_left came).trans horder
  | waits =>
    rw [← List.append_assoc]
    exact horder.append (List.Sublist.refl _)
  | replaces =>
    exact ((List.sublist_append_left _ _).trans horder).append (List.Sublist.refl _)

lemma Pushes.occurrences (h : Pushes kinds queue report after dropped)
    (hpassed : report.isOccurrence kinds = false →
      ∀ waits ∈ queue.waiting report.uniqueId, waits.isOccurrence kinds = false)
    (hperm : (went.filter (StateReport.isOccurrence kinds)).Perm
      ((came ++ queue.waiting report.uniqueId).filter (StateReport.isOccurrence kinds) ++
        lost.filter (StateReport.isOccurrence kinds))) :
    ((went ++ [report]).filter (StateReport.isOccurrence kinds)).Perm
      ((came ++ after).filter (StateReport.isOccurrence kinds) ++
        (lost ++ dropped).filter (StateReport.isOccurrence kinds)) := by
  simp only [← Multiset.coe_eq_coe, List.filter_append, ← Multiset.coe_add] at hperm ⊢
  rw [hperm]
  cases h with
  | dropped => abel
  | crowded oldest rest _ full =>
    rw [full, ← List.singleton_append]
    simp only [List.filter_append, ← Multiset.coe_add]
    abel
  | waits =>
    simp only [List.filter_append, ← Multiset.coe_add, List.filter_nil, Multiset.coe_nil]
    abel
  | replaces value =>
    have hnone : (queue.waiting report.uniqueId).filter (StateReport.isOccurrence kinds) = [] :=
      List.filter_eq_nil_iff.mpr fun x hx => by simp [hpassed value x hx]
    simp only [hnone, List.filter_nil, Multiset.coe_nil]
    abel

lemma Pushes.newest (h : Pushes kinds queue report after dropped)
    (hvalue : report.isOccurrence kinds = false) :
    (came ++ after).getLast? = some report ∨ report ∈ dropped := by
  cases h with
  | dropped => exact .inr (List.mem_singleton.mpr rfl)
  | crowded oldest rest occurrence full =>
    rw [hvalue] at occurrence
    cases occurrence
  | waits occurrence =>
    rw [hvalue] at occurrence
    cases occurrence
  | replaces => exact .inl (List.getLast?_concat ..)

end Pushed

lemma push_cases (h : Filed queue) (kinds : Kinds κ σ) (report : StateReport σ) :
    Pushes kinds queue report ((queue.push kinds report).waiting report.uniqueId)
        (Channel.counts kinds queue report) ∧
      (∀ id : UniqueId, report.uniqueId ≠ id →
        (queue.push kinds report).waiting id = queue.waiting id) ∧
      (queue.push kinds report).dropped =
        queue.dropped + (Channel.counts kinds queue report).length ∧
      Filed (queue.push kinds report) := by
  have hown := h.waiting report.uniqueId
  unfold ReportQueue.push Channel.counts
  split
  · exact ⟨.dropped, fun _ _ => rfl, rfl, h⟩
  · dsimp only
    cases hocc : report.isOccurrence kinds with
    | false =>
      simp only [Bool.false_eq_true, if_false, Bool.false_and]
      refine ⟨?_, fun id hne => ?_, rfl, h.insert (List.cons_ne_nil _ _) (by simp) _⟩
      · rw [waiting_insert, if_pos rfl]
        exact .replaces hocc
      · rw [waiting_insert, if_neg hne]
    | true =>
      simp only [if_true, Bool.true_and]
      by_cases hfull : maxPendingOccurrences ≤ (queue.waiting report.uniqueId).length
      · simp only [hfull, if_true, decide_true]
        cases hwaiting : queue.waiting report.uniqueId with
        | nil => simp [hwaiting, maxPendingOccurrences] at hfull
        | cons oldest rest =>
          rw [hwaiting] at hown
          refine ⟨?_, fun id hne => ?_, rfl, h.insert (by simp) (fun x hx => ?_) _⟩
          · rw [waiting_insert, if_pos rfl]
            exact .crowded oldest rest hocc hwaiting
          · rw [waiting_insert, if_neg hne]
          · rcases List.mem_append.mp hx with hx | hx
            · exact hown x (List.mem_cons_of_mem _ hx)
            · rw [List.mem_singleton.mp hx]
      · simp only [hfull, if_false, decide_false, Bool.false_eq_true]
        refine ⟨?_, fun id hne => ?_, rfl, h.insert (by simp) (fun x hx => ?_) _⟩
        · rw [waiting_insert, if_pos rfl]
          exact .waits hocc
        · rw [waiting_insert, if_neg hne]
        · rcases List.mem_append.mp hx with hx | hx
          · exact hown x hx
          · rw [List.mem_singleton.mp hx]

lemma pop_cases (h : Filed queue) :
    (queue.pop = (none, queue)) ∨ ∃ (report : StateReport σ) (next : ReportQueue σ),
      queue.pop = (some report, next) ∧
        queue.waiting report.uniqueId = report :: next.waiting report.uniqueId ∧
        (∀ id : UniqueId, report.uniqueId ≠ id → next.waiting id = queue.waiting id) ∧
        next.dropped = queue.dropped ∧ Filed next := by
  unfold ReportQueue.pop
  cases hfirst : queue.pending.toList.head? with
  | none => exact .inl rfl
  | some row =>
    obtain ⟨id, reports⟩ := row
    have hrow := Std.ExtTreeMap.mem_toList_iff_getElem?_eq_some.mp (List.mem_of_mem_head? hfirst)
    obtain ⟨hne, hown⟩ := h id reports hrow
    obtain ⟨report, rest, rfl⟩ := List.exists_cons_of_ne_nil hne
    have hid : report.uniqueId = id := hown report List.mem_cons_self
    have hwaiting : queue.waiting id = report :: rest := by
      rw [ReportQueue.waiting, hrow, Option.getD_some]
    by_cases hempty : rest.isEmpty = true
    · simp only [List.head?_cons, List.tail_cons, hempty, if_true]
      refine .inr ⟨report, _, rfl, ?_, fun k hk => ?_, rfl, h.erase id⟩
      · rw [hid, hwaiting, List.isEmpty_iff.mp hempty, ReportQueue.waiting, Map.get_erase,
          if_pos rfl, Option.getD_none]
      · rw [ReportQueue.waiting, Map.get_erase, if_neg (hid ▸ hk), ReportQueue.waiting]
    · simp only [List.head?_cons, List.tail_cons, hempty, if_false, Bool.false_eq_true]
      refine .inr ⟨report, _, rfl, ?_, fun k hk => ?_, rfl, ?_⟩
      · rw [hid, hwaiting, waiting_insert, if_pos rfl]
      · rw [waiting_insert, if_neg (hid ▸ hk)]
      · rw [List.isEmpty_iff] at hempty
        exact h.insert hempty (fun x hx => hown x (List.mem_cons_of_mem _ hx)) _

end Queue

section Moves

variable {kinds : Kinds κ σ} {channel : Channel σ}

/-- A value is only reported for an entity none of whose occurrences wait. -/
def NonePassedOver (kinds : Kinds κ σ) (channel : Channel σ) : Move σ → Prop
  | .push report => report.isOccurrence kinds = false →
      ∀ waits ∈ channel.queue.waiting report.uniqueId, waits.isOccurrence kinds = false
  | _ => True

lemma seen_eq {a b : Channel σ} {id : UniqueId} (hhanded : b.handed = a.handed)
    (hpopped : b.popped = a.popped) (hwaiting : b.queue.waiting id = a.queue.waiting id) :
    seen b id = seen a id := by
  unfold seen
  rw [hhanded, hpopped, hwaiting]

lemma counts_own (h : Filed channel.queue) (report : StateReport σ) :
    ∀ x ∈ Channel.counts kinds channel.queue report, x.uniqueId = report.uniqueId := by
  intro x hx
  unfold Channel.counts at hx
  split at hx
  · rw [List.mem_singleton.mp hx]
  · split at hx
    · exact h.waiting report.uniqueId x (List.mem_of_mem_take hx)
    · cases hx

lemma push_accounted (hfiled : Filed channel.queue) (h : Accounted kinds channel)
    {report : StateReport σ} (hallowed : NonePassedOver kinds channel (.push report)) :
    Accounted kinds (channel.step kinds (.push report)) := by
  obtain ⟨hpushes, hothers, hdropped, -⟩ := push_cases hfiled kinds report
  have hcounts : ∀ x ∈ Channel.counts kinds channel.queue report, x.uniqueId = report.uniqueId :=
    counts_own hfiled report
  -- Of other entities nothing changes.
  have hother : ∀ id : UniqueId, report.uniqueId ≠ id →
      seen (channel.step kinds (.push report)) id = seen channel id ∧
      about id (channel.step kinds (.push report)).pushed = about id channel.pushed ∧
      about id (channel.step kinds (.push report)).counted = about id channel.counted := by
    intro id hne
    refine ⟨seen_eq rfl rfl (hothers id hne), about_append_other _ ?_, about_append_other _ ?_⟩
    · intro x hx
      rwa [List.mem_singleton.mp hx]
    · exact fun x hx => (hcounts x hx).symm ▸ hne
  have hpushed : about report.uniqueId (channel.step kinds (.push report)).pushed =
      about report.uniqueId channel.pushed ++ [report] :=
    about_append_own _ fun x hx => by rw [List.mem_singleton.mp hx]
  have hcounted : about report.uniqueId (channel.step kinds (.push report)).counted =
      about report.uniqueId channel.counted ++ Channel.counts kinds channel.queue report :=
    about_append_own _ hcounts
  constructor
  · intro id
    by_cases hid : report.uniqueId = id
    · subst hid
      rw [hpushed]
      exact hpushes.order (h.order report.uniqueId)
    · obtain ⟨hs, hp, -⟩ := hother id hid
      rw [hs, hp]
      exact h.order id
  · intro id
    by_cases hid : report.uniqueId = id
    · subst hid
      rw [hpushed, hcounted]
      exact hpushes.occurrences hallowed (h.occurrences report.uniqueId)
    · obtain ⟨hs, hp, hc⟩ := hother id hid
      rw [hs, hp, hc]
      exact h.occurrences id
  · intro id value hlast hvalue
    by_cases hid : report.uniqueId = id
    · subst hid
      rw [hpushed, List.getLast?_concat, Option.some.injEq] at hlast
      subst hlast
      exact (hpushes.newest hvalue).imp_right fun hmem => List.mem_append_right _ hmem
    · obtain ⟨hs, hp, -⟩ := hother id hid
      rw [hp] at hlast
      rw [hs]
      exact (h.newest id value hlast hvalue).imp_right fun hmem => List.mem_append_left _ hmem
  · change channel.told + (channel.queue.push kinds report).dropped = _
    rw [hdropped, ← Nat.add_assoc, h.drops]
    exact (List.length_append ..).symm

lemma Accounted.of_seen {next : Channel σ} (h : Accounted kinds channel)
    (hseen : ∀ id : UniqueId, seen next id = seen channel id)
    (hpushed : next.pushed = channel.pushed) (hcounted : next.counted = channel.counted)
    (hdrops : next.told + next.queue.dropped = channel.told + channel.queue.dropped) :
    Accounted kinds next where
  order id := by
    rw [hseen, hpushed]
    exact h.order id
  occurrences id := by
    rw [hseen, hpushed, hcounted]
    exact h.occurrences id
  newest id value := by
    rw [hseen, hpushed, hcounted]
    exact h.newest id value
  drops := by rw [hdrops, hcounted, h.drops]

lemma take_accounted (hfiled : Filed channel.queue) (h : Accounted kinds channel) :
    Accounted kinds (channel.step kinds .take) := by
  refine h.of_seen (fun id => ?_) rfl rfl rfl
  have hempty : (channel.step kinds .take).queue.waiting id = [] := by
    change ((∅ : Map UniqueId (List (StateReport σ)))[id]?).getD [] = []
    simp
  have hall : (channel.step kinds .take).handed ++ (channel.step kinds .take).popped.toList =
      channel.handed ++ channel.popped.toList ++ channel.queue.take.1 := List.append_nil _
  rw [seen, hempty, hall, about_append, about_take hfiled, List.append_nil, seen]

lemma pop_accounted (hfiled : Filed channel.queue) (h : Accounted kinds channel) :
    Accounted kinds (channel.step kinds .pop) := by
  rcases pop_cases hfiled with hnone | ⟨report, next, hnext, hfirst, hothers, hdropped, -⟩
  · refine h.of_seen (fun id => ?_) rfl rfl ?_
    · have hstep : channel.step kinds .pop = { channel with
          popped := none
          handed := channel.handed ++ channel.popped.toList } := by
        rw [Channel.step, hnone]
      rw [hstep, seen, seen, Option.toList_none, List.append_nil]
    · rw [Channel.step, hnone]
  · have hstep : channel.step kinds .pop = { channel with
        queue := next
        popped := some report
        handed := channel.handed ++ channel.popped.toList } := by
      rw [Channel.step, hnext]
    refine h.of_seen (fun id => ?_) (by rw [hstep]) (by rw [hstep]) (by rw [hstep, hdropped])
    rw [hstep, seen, seen, Option.toList_some]
    by_cases hid : report.uniqueId = id
    · subst hid
      rw [about_append_own _ fun x hx => by rw [List.mem_singleton.mp hx], hfirst,
        List.append_assoc, List.singleton_append]
    · rw [about_append_other _ fun x hx => by rwa [List.mem_singleton.mp hx], hothers id hid]

lemma Accounted.leave (h : Accounted kinds channel) {report : StateReport σ}
    (hpopped : channel.popped = some report) (hvalue : report.isOccurrence kinds = false)
    (hwaits : channel.queue.waiting report.uniqueId ≠ []) :
    Accounted kinds { channel with popped := none } := by
  have hafter : ∀ id : UniqueId, seen { channel with popped := none } id =
      about id channel.handed ++ channel.queue.waiting id := by
    intro id
    rw [seen, Option.toList_none, List.append_nil]
  have hbefore : ∀ id : UniqueId, seen channel id =
      about id channel.handed ++ about id [report] ++ channel.queue.waiting id := by
    intro id
    rw [seen, hpopped, Option.toList_some, about_append]
  constructor
  · intro id
    rw [hafter]
    refine List.Sublist.trans ?_ (h.order id)
    rw [hbefore]
    exact (List.sublist_append_left _ _).append (List.Sublist.refl _)
  · intro id
    have hnone : (about id [report]).filter (StateReport.isOccurrence kinds) = [] := by
      refine List.filter_eq_nil_iff.mpr fun x hx => ?_
      rw [List.mem_singleton.mp (List.mem_filter.mp hx).1, hvalue]
      exact Bool.false_ne_true
    have hocc := h.occurrences id
    rw [hbefore, List.filter_append, List.filter_append, hnone, List.append_nil,
      ← List.filter_append] at hocc
    rw [hafter]
    exact hocc
  · intro id value hlast hnew
    refine (h.newest id value hlast hnew).imp_left fun hseen => ?_
    rw [hbefore] at hseen
    rw [hafter]
    by_cases hid : report.uniqueId = id
    · rw [List.getLast?_append_of_ne_nil _ (hid ▸ hwaits)] at hseen ⊢
      exact hseen
    · have hgone : about id [report] = [] :=
        about_other fun x hx => by rwa [List.mem_singleton.mp hx]
      rwa [hgone, List.append_nil] at hseen
  · exact h.drops

lemma Accounted.back (h : Accounted kinds channel) {report : StateReport σ}
    (hpopped : channel.popped = some report) (dropped : Nat)
    (hdropped : dropped = channel.queue.dropped) :
    Accounted kinds { channel with
      queue :=
        { pending := channel.queue.pending.insert report.uniqueId
            (report :: channel.queue.waiting report.uniqueId)
          dropped }
      popped := none } := by
  refine h.of_seen (fun id => ?_) rfl rfl (by rw [hdropped])
  rw [seen, seen, hpopped, Option.toList_none, List.append_nil, Option.toList_some, waiting_insert]
  split
  · next hid =>
    subst hid
    rw [about_append_own _ fun x hx => by rw [List.mem_singleton.mp hx], List.append_assoc,
      List.singleton_append]
  · next hid => rw [about_append_other _ fun x hx => by rwa [List.mem_singleton.mp hx]]

lemma restore_accounted (hfiled : Filed channel.queue) (h : Accounted kinds channel) :
    Accounted kinds (channel.step kinds .restore) := by
  unfold Channel.step
  dsimp only
  split
  · exact h
  · next report hpopped =>
    unfold ReportQueue.restoreIfAbsent
    split
    · exact h.back hpopped _ rfl
    · next hvalue =>
      rw [Bool.not_eq_true] at hvalue
      split
      · next reports hreports =>
        refine h.leave hpopped hvalue ?_
        rw [ReportQueue.waiting, hreports, Option.getD_some]
        exact (hfiled _ _ hreports).1
      · next hnone =>
        have hback := h.back hpopped _ rfl
        rwa [ReportQueue.waiting, hnone, Option.getD_none] at hback

lemma takeDropped_accounted (h : Accounted kinds channel) :
    Accounted kinds (channel.step kinds .takeDropped) :=
  h.of_seen (fun _ => rfl) rfl rfl (Nat.add_zero _)

lemma step_filed (hfiled : Filed channel.queue) (move : Move σ) :
    Filed (channel.step kinds move).queue := by
  cases move with
  | push report => exact (push_cases hfiled kinds report).2.2.2
  | take => exact fun id reports hreports => by simp [Channel.step, ReportQueue.take] at hreports
  | pop =>
    rcases pop_cases hfiled with hnone | ⟨report, next, hnext, -, -, -, hnextFiled⟩
    · rw [Channel.step, hnone]
      exact hfiled
    · rw [Channel.step, hnext]
      exact hnextFiled
  | restore =>
    unfold Channel.step
    dsimp only
    split
    · exact hfiled
    · next report _ =>
      unfold ReportQueue.restoreIfAbsent
      split
      · refine hfiled.insert (List.cons_ne_nil _ _) (fun x hx => ?_) _
        rcases List.mem_cons.mp hx with rfl | hx
        · rfl
        · exact hfiled.waiting _ x hx
      · split
        · exact hfiled
        · exact hfiled.insert (List.cons_ne_nil _ _)
            (fun x hx => by rw [List.mem_singleton.mp hx]) _
  | takeDropped => exact hfiled

/-- **Every report comes out in the order of its entity, or is counted**, as long as no value is
reported for an entity whose occurrences wait. -/
theorem through_accounted (h : Through kinds (NonePassedOver kinds) channel) :
    Accounted kinds channel := by
  have hboth : Filed channel.queue ∧ Accounted kinds channel := by
    induction h with
    | new =>
      refine ⟨fun id reports hreports => ?_, fun _ => List.Sublist.refl _,
        fun _ => List.Perm.refl _, fun _ _ hlast => ?_, rfl⟩
      · simp [Channel.new, ReportQueue.empty] at hreports
      · cases hlast
    | step move _ hallowed ih =>
      refine ⟨step_filed ih.1 move, ?_⟩
      cases move with
      | push report => exact push_accounted ih.1 ih.2 hallowed
      | take => exact take_accounted ih.1 ih.2
      | pop => exact pop_accounted ih.1 ih.2
      | restore => exact restore_accounted ih.1 ih.2
      | takeDropped => exact takeDropped_accounted ih.2
  exact hboth.2

end Moves

def events : Kinds Unit String where
  kind _ := .event
  validate _ := .ok ()
  stateKind _ := .event
  validateState _ := .ok ()
  fits _ _ := .ok ()
  toLowercase := fun text => text.toLower
  display := fun q => toString q

def remote : UniqueId := ⟨"remote", by decide⟩

def press (type : Option String) : StateReport String :=
  { uniqueId := remote
    state := type.map State.other
    attributes := ∅
    causedBy := none
    replayed := false }

theorem accounted_pressed : Accounted events
    ((((Channel.new.step events (.push (press (some "single")))).step events
      (.push (press (some "double")))).step events .pop).step events .restore) := by
  refine through_accounted ((((Through.new.step _ ?_).step _ ?_).step _ trivial).step _ trivial)
  · intro hvalue
    exact absurd hvalue (by decide)
  · intro hvalue
    exact absurd hvalue (by decide)

/-- A press that waits is lost, uncounted, when its entity becomes unknown. -/
theorem not_accounted_unknown : ∃ channel : Channel String,
    channel = ((Channel.new.step events (.push (press (some "single")))).step events
      (.push (press none))).step events .take ∧
      Through events (fun _ _ => True) channel ∧
      channel.handed = [press none] ∧ channel.counted = [] ∧ channel.queue.dropped = 0 ∧
      ¬ Accounted events channel := by
  refine ⟨_, rfl, ((Through.new.step _ trivial).step _ trivial).step _ trivial, by decide,
    by decide, by decide, fun h => ?_⟩
  have hpresses := (h.occurrences remote).length_eq
  exact absurd hpresses (by decide)

end Irori.Proofs

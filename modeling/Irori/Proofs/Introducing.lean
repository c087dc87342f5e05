import Irori.Esphome.Devices

/-!
# One connection speaks for a device

Addresses are handed round, and what a connection said can arrive after it was replaced. One online
node has a given connection, which runs at its address and last introduced that device; calls go to
it, and its reports alone are passed on. A device that moves stops its old connection by the
address it left, which is another's once the old one was locked; and a report of a device that was
never taken in is passed on whoever sent it.
-/

namespace Irori

namespace Esphome

open Core Devices

variable {α κ σ Key : Type} [LinearOrder α]

/-- One connection speaks for each device that is online. -/
structure OneSpeaker (loop : Loop α) : Prop where
  one : ∀ (D E : UniqueId) (n m : Node α), loop.devices.nodes[D]? = some n →
    loop.devices.nodes[E]? = some m → n.online = true → m.online = true →
      n.connection = m.connection → D = E
  running : ∀ (D : UniqueId) (n : Node α), loop.devices.nodes[D]? = some n → n.online = true →
    ∃ task, loop.devices.tasks[n.connection.address]? = some task ∧
      task.connection = n.connection
  last : ∀ (D : UniqueId) (n : Node α), loop.devices.nodes[D]? = some n → n.online = true →
    loop.introduced n.connection = some D

/-- What is passed on is from and to the connections that speak for the devices, and none is stopped
but one that was locked or whose device speaks through another. -/
structure KeepsToSpeakers (loop : Loop α) (happening : Happening α κ σ) (loop' : Loop α)
    (told : List (Told α κ σ)) : Prop where
  calls : ∀ (entity : UniqueId) (connection : Connection α), .call entity connection ∈ told →
    ∃ (D : UniqueId) (n : Node α), loop.devices.nodes[D]? = some n ∧ entity ∈ n.entities ∧
      loop.introduced connection = some D
  reports : ∀ (answers : Answers κ) (connection : Connection α) (D : UniqueId)
    (report : StateReport σ), happening = .spoke answers (.reported connection D report) →
      .report report ∈ told → (∃ n, loop.devices.nodes[D]? = some n ∧ n.connection = connection) ∧
        loop.introduced connection = some D
  stops : ∀ (address : α) (task : Task α), loop.devices.tasks[address]? = some task →
    (∀ task', loop'.devices.tasks[address]? = some task' → task'.connection ≠ task.connection) →
      (∃ answers why, happening = .spoke answers (.locked task.connection why)) ∨
        ∃ (D : UniqueId) (n : Node α), loop'.introduced task.connection = some D ∧
          loop'.devices.nodes[D]? = some n ∧ n.connection ≠ task.connection

/-- A device that moves leaves an address where its own connection runs, or one whose device speaks
through another, or none; and a report is of a device that was taken in. -/
def Heeds (loop : Loop α) : Happening α κ σ → Prop
  | .spoke _ (.arrived connection device _) =>
    loop.devices.current connection = true → ∀ n : Node α,
      loop.devices.nodes[device.uniqueId]? = some n → n.connection ≠ connection →
        loop.devices.takenOver n.connection.address device.uniqueId = true ∨
          n.connection.address ≠ connection.address ∧ ∀ task : Task α,
            loop.devices.tasks[n.connection.address]? = some task →
              task.connection = n.connection ∨
                ∃ (D : UniqueId) (m : Node α), loop.introduced task.connection = some D ∧
                  loop.devices.nodes[D]? = some m ∧ m.connection ≠ task.connection
  | .spoke _ (.reported _ device _) => (loop.devices.nodes[device]?).isSome = true
  | _ => True

inductive Heeding (κ σ : Type) (settings : Settings Key) : Loop α → Prop
  | start : Heeding κ σ settings .start
  | step {loop loop' : Loop α} {happening : Happening α κ σ} {told : List (Told α κ σ)} :
      Heeding κ σ settings loop → Heeds loop happening →
        loop.step settings happening = some (loop', told) → Heeding κ σ settings loop'

structure Kept (loop : Loop α) : Prop where
  task : ∀ (address : α) (task : Task α), loop.devices.tasks[address]? = some task →
    task.connection.address = address ∧ task.commands = task.connection ∧
      ∃ speaker, loop.speakers task.connection = some speaker ∧ speaker.ended = false ∧
        loop.introduced task.connection = speaker.known
  started : ∀ (c : Connection α), (loop.speakers c).isSome = true →
    c.id ≤ loop.devices.connections
  silent : ∀ (c : Connection α), loop.speakers c = none → loop.introduced c = none
  node : ∀ (D : UniqueId) (n : Node α), loop.devices.nodes[D]? = some n →
    n.commands = n.connection ∧ loop.introduced n.connection ≠ none ∧
      (loop.devices.current n.connection = true ∨
        ∃ speaker, loop.speakers n.connection = some speaker ∧ speaker.ended = true)
  online : ∀ (D : UniqueId) (n : Node α), loop.devices.nodes[D]? = some n → n.online = true →
    loop.devices.current n.connection = true ∧ loop.introduced n.connection = some D ∧
      ∃ speaker, loop.speakers n.connection = some speaker ∧ speaker.inSession = true
  known : ∀ (c : Connection α) (D : UniqueId), loop.introduced c = some D →
    ∃ n, loop.devices.nodes[D]? = some n

section

variable {loop loop' : Loop α} {devices devices' : Devices α} {c : Connection α}

lemma current_iff : devices.current c = true ↔
    ∃ task, devices.tasks[c.address]? = some task ∧ task.connection = c := by
  unfold Devices.current
  cases devices.tasks[c.address]? with
  | none => simp
  | some task => simp

lemma takenOver_iff {address : α} {device : UniqueId} :
    devices.takenOver address device = true ↔
      ∃ (E : UniqueId) (n : Node α), devices.nodes[E]? = some n ∧
        n.connection.address = address ∧ E ≠ device := by
  unfold Devices.takenOver
  rw [List.any_eq_true]
  constructor
  · rintro ⟨⟨E, n⟩, hmem, hwhere⟩
    simp only [ne_eq, Bool.and_eq_true, decide_eq_true_eq] at hwhere
    exact ⟨E, n, Std.ExtTreeMap.mem_toList_iff_getElem?_eq_some.mp hmem, hwhere⟩
  · rintro ⟨E, n, hn, haddress, hne⟩
    exact ⟨(E, n), Std.ExtTreeMap.mem_toList_iff_getElem?_eq_some.mpr hn, by
      simp [haddress, hne]⟩

lemma Kept.oneSpeaker (h : Kept loop) : OneSpeaker loop where
  one D E n m hn hm hno hmo hsame := by
    have hD := (h.online D n hn hno).2.1
    have hE := (h.online E m hm hmo).2.1
    rw [hsame, hE] at hD
    exact (Option.some.inj hD).symm
  running D n hn hno := current_iff.mp (h.online D n hn hno).1
  last D n hn hno := (h.online D n hn hno).2.1

lemma connection_at {a : α} {task : Task α} (htask : devices.tasks[a]? = some task)
    (hcurrent : devices.current c = true) (haddress : c.address = a) : task.connection = c := by
  obtain ⟨t, ht, rfl⟩ := current_iff.mp hcurrent
  subst haddress
  rw [Option.some.inj (htask.symm.trans ht)]

lemma current_of_kept (hcurrent : devices.current c = true)
    (hkept : ∀ task, devices.tasks[c.address]? = some task →
      devices'.tasks[c.address]? = some task) : devices'.current c = true := by
  obtain ⟨task, htask, hc⟩ := current_iff.mp hcurrent
  exact current_iff.mpr ⟨task, hkept task htask, hc⟩

lemma current_congr (htasks : devices'.tasks = devices.tasks) :
    devices'.current c = devices.current c := by
  simp only [Devices.current, htasks]

/-! ### An announcement -/

lemma wait_same (devices : Devices α) (mac : Mac) (name why : String) :
    (devices.wait mac name why).tasks = devices.tasks ∧
      (devices.wait mac name why).nodes = devices.nodes ∧
      (devices.wait mac name why).connections = devices.connections := by
  unfold Devices.wait
  split <;> exact ⟨rfl, rfl, rfl⟩

lemma arrive_cases (settings : Settings Key) (devices : Devices α) (announced : Announced α) :
    ((devices.arrive settings announced).tasks = devices.tasks ∧
      (devices.arrive settings announced).nodes = devices.nodes ∧
      (devices.arrive settings announced).connections = devices.connections) ∨
    (devices.tasks[announced.address]? = none ∧
      (devices.arrive settings announced).tasks = devices.tasks.insert announced.address
        ⟨devices.next announced.address, devices.next announced.address⟩ ∧
      (devices.arrive settings announced).nodes = devices.nodes ∧
      (devices.arrive settings announced).connections = devices.connections + 1) := by
  unfold Devices.arrive
  split
  · exact .inl ⟨rfl, rfl, rfl⟩
  · rename_i hfree
    have hnone : devices.tasks[announced.address]? = none := by
      rw [Std.ExtTreeMap.contains_eq_isSome_getElem?] at hfree
      simpa using hfree
    split
    · exact .inl ⟨rfl, rfl, rfl⟩
    · dsimp only
      split
      · split
        · exact .inl ⟨rfl, rfl, rfl⟩
        · split
          · exact .inr ⟨hnone, rfl, rfl, rfl⟩
          · exact .inl (wait_same _ _ _ _)
          · exact .inl (wait_same _ _ _ _)
      · exact .inr ⟨hnone, rfl, rfl, rfl⟩

lemma hear_kept (h : Kept loop) (settings : Settings Key) (announced : Announced α) :
    Kept (loop.hear settings announced) := by
  unfold Loop.hear
  dsimp only
  rcases arrive_cases settings loop.devices announced with
    ⟨htasks, hnodes, hcount⟩ | ⟨hfree, htasks, hnodes, hcount⟩
  · rw [if_pos hcount]
    refine ⟨fun a t ht => h.task a t (htasks ▸ ht), fun c hc => hcount ▸ h.started c hc, h.silent,
      fun D n hn => ?_, fun D n hn => ?_, fun c D hD => ?_⟩
    · rw [current_congr htasks]
      exact h.node D n (hnodes ▸ hn)
    · rw [current_congr htasks]
      exact h.online D n (hnodes ▸ hn)
    · show ∃ n, (loop.devices.arrive settings announced).nodes[D]? = some n
      rw [hnodes]
      exact h.known c D hD
  · rw [if_neg (by omega)]
    have hfresh : loop.speakers (loop.devices.next announced.address) = none := by
      cases hs : loop.speakers (loop.devices.next announced.address) with
      | none => rfl
      | some speaker =>
        have hle := h.started _ (by rw [hs]; rfl)
        simp only [Devices.next] at hle
        omega
    have hnew : loop.introduced (loop.devices.next announced.address) = none :=
      h.silent _ hfresh
    have hruns : ∀ c, loop.devices.current c = true →
        (loop.devices.arrive settings announced).current c = true := fun c hc =>
      current_of_kept hc fun task htask => by
        rw [htasks, Map.get_insert, if_neg (fun heq => by simp [← heq, hfree] at htask)]
        exact htask
    have hother : ∀ c, loop.introduced c ≠ none → c ≠ loop.devices.next announced.address :=
      fun c hc heq => hc (heq ▸ hnew)
    refine ⟨fun a t ht => ?_, fun c hc => ?_, fun c hc => ?_, fun D n hn => ?_,
      fun D n hn hon => ?_, fun c D hD => ?_⟩
    · rw [htasks, Map.get_insert] at ht
      split at ht
      · rename_i ha
        obtain rfl := Option.some.inj ht
        exact ⟨ha, rfl, Speaker.fresh, Function.update_self _ _ _, rfl, hnew⟩
      · obtain ⟨haddress, hcommands, speaker, hs, hended, hknown⟩ := h.task a t ht
        refine ⟨haddress, hcommands, speaker, (Function.update_of_ne ?_ _ _).trans hs, hended,
          hknown⟩
        intro heq
        rw [heq, hfresh] at hs
        cases hs
    · show c.id ≤ (loop.devices.arrive settings announced).connections
      rw [hcount]
      by_cases heq : c = loop.devices.next announced.address
      · rw [heq]
        exact le_rfl
      · change (Function.update loop.speakers _ _ c).isSome = true at hc
        rw [Function.update_of_ne heq] at hc
        exact (h.started c hc).trans (Nat.le_succ _)
    · by_cases heq : c = loop.devices.next announced.address
      · rw [heq]
        exact hnew
      · change Function.update loop.speakers _ _ c = none at hc
        rw [Function.update_of_ne heq] at hc
        exact h.silent c hc
    · obtain ⟨hcommands, hsome, hruns'⟩ := h.node D n (hnodes ▸ hn)
      refine ⟨hcommands, hsome, hruns'.imp (hruns _) fun ⟨speaker, hs, hended⟩ => ?_⟩
      exact ⟨speaker, (Function.update_of_ne (hother _ hsome) _ _).trans hs, hended⟩
    · obtain ⟨hrunning, hlast, speaker, hs, hin⟩ := h.online D n (hnodes ▸ hn) hon
      refine ⟨hruns _ hrunning, hlast, speaker, ?_, hin⟩
      exact (Function.update_of_ne (hother _ (by rw [hlast]; simp)) _ _).trans hs
    · show ∃ n, (loop.devices.arrive settings announced).nodes[D]? = some n
      rw [hnodes]
      exact h.known c D hD

/-! ### An introduction -/

lemma leave_same (devices : Devices α) (D : UniqueId) (c : Connection α) :
    (devices.leave D c).nodes = devices.nodes ∧
      (devices.leave D c).connections = devices.connections := by
  unfold Devices.leave
  split
  · exact ⟨rfl, rfl⟩
  · split
    · exact ⟨rfl, rfl⟩
    · split <;> exact ⟨rfl, rfl⟩

/-- A device that moves leaves the tasks as they are, or stops what runs at an address that is no
other device's. -/
lemma leave_tasks (devices : Devices α) (D : UniqueId) (c : Connection α) :
    (devices.leave D c).tasks = devices.tasks ∨
      ∃ previous, devices.nodes[D]? = some previous ∧ previous.connection ≠ c ∧
        devices.takenOver previous.connection.address D = false ∧
        (devices.leave D c).tasks = devices.tasks.erase previous.connection.address := by
  unfold Devices.leave
  split
  · exact .inl rfl
  · rename_i previous hprevious
    split
    · exact .inl rfl
    · rename_i hmoved
      split
      · exact .inl rfl
      · rename_i hfree
        exact .inr ⟨previous, hprevious, hmoved, by simpa using hfree, rfl⟩

lemma leave_subset {D : UniqueId} {a : α} {task : Task α}
    (h : (devices.leave D c).tasks[a]? = some task) : devices.tasks[a]? = some task := by
  rcases leave_tasks devices D c with htasks | ⟨previous, -, -, -, htasks⟩
  · exact htasks ▸ h
  · rw [htasks, Map.get_erase] at h
    split at h
    · cases h
    · exact h

lemma introduce_ok {answers : Answers κ} {device : DeviceDescription}
    {entities : List (EntityDescription κ)} {told : List (Told α κ σ)}
    (h : devices.introduce answers c device entities = .ok (devices', told)) :
    ∃ task described, (devices.leave device.uniqueId c).tasks[c.address]? = some task ∧
      devices'.tasks = (devices.leave device.uniqueId c).tasks ∧
      devices'.nodes = (devices.nodes.map (displaced c.address device.uniqueId)).insert
        device.uniqueId ⟨c, task.commands, described, true⟩ ∧
      devices'.connections = devices.connections := by
  unfold Devices.introduce at h
  split at h
  · dsimp only at h
    split at h
    · split at h
      · cases h
      · rename_i task htask
        obtain ⟨rfl, -⟩ := Prod.mk.inj (Except.ok.inj h)
        refine ⟨task, (entities.filter fun entity => answers.entity entity).map (·.uniqueId), htask,
          rfl, ?_, (leave_same devices device.uniqueId c).2⟩
        rw [(leave_same devices device.uniqueId c).1]
    · cases h
  · cases h

/-- What is kept of a node once a device was introduced: the new one, or what was there with the
displaced away. -/
lemma introduced_node {D E : UniqueId} {n new : Node α}
    (hn : ((devices.nodes.map (displaced c.address D)).insert D new)[E]? = some n) :
    (E = D ∧ n = new) ∨ (E ≠ D ∧ ∃ m, devices.nodes[E]? = some m ∧
      n.connection = m.connection ∧ n.commands = m.commands ∧
      (n.online = true → m.online = true ∧ m.connection.address ≠ c.address)) := by
  rw [Map.get_insert] at hn
  split at hn
  · rename_i hD
    exact .inl ⟨hD.symm, (Option.some.inj hn).symm⟩
  · rename_i hD
    rw [Std.ExtTreeMap.getElem?_map] at hn
    obtain ⟨m, hm, rfl⟩ := Option.map_eq_some_iff.mp hn
    refine .inr ⟨fun h => hD h.symm, m, hm, ?_⟩
    unfold displaced
    split
    · exact ⟨rfl, rfl, fun h => by cases h⟩
    · rename_i hstays
      exact ⟨rfl, rfl, fun h => ⟨h, fun haddress => hstays ⟨haddress, fun h => hD h.symm⟩⟩⟩

lemma introduced_stays {D E : UniqueId} {m : Node α} (new : Node α)
    (hm : devices.nodes[E]? = some m) :
    ∃ n, ((devices.nodes.map (displaced c.address D)).insert D new)[E]? = some n ∧
      (E ≠ D → n.connection = m.connection) := by
  by_cases hD : D = E
  · subst hD
    exact ⟨new, by rw [Map.get_insert, if_pos rfl], fun h => absurd rfl h⟩
  · rw [Map.get_insert, if_neg hD, Std.ExtTreeMap.getElem?_map, hm]
    refine ⟨displaced c.address D E m, rfl, fun _ => ?_⟩
    unfold displaced
    split <;> rfl

/-- What an introduction does to the connections, where the device leaves its own address. -/
structure Introduces (loop : Loop α) (c : Connection α) (D : UniqueId) (loop' : Loop α) : Prop where
  running : loop.devices.current c = true
  speaker : ∃ speaker, loop.speakers c = some speaker ∧ speaker.ended = false ∧
    loop'.speakers = Function.update loop.speakers c
      (some { speaker with known := some D, inSession := true })
  introduced : loop'.introduced = Function.update loop.introduced c (some D)
  connections : loop'.devices.connections = loop.devices.connections
  nodes : ∃ described, loop'.devices.nodes =
    (loop.devices.nodes.map (displaced c.address D)).insert D ⟨c, c, described, true⟩
  tasks : loop'.devices.tasks = (loop.devices.leave D c).tasks
  still : ∃ task, loop'.devices.tasks[c.address]? = some task

lemma listen_eq {answers : Answers κ} {event : Event α κ σ} {told : List (Told α κ σ)}
    (hstep : loop.listen answers event = some (loop', told)) :
    ∃ s s' devices', loop.speakers event.connection = some s ∧ s.utters event = some s' ∧
      loop.devices.apply answers event = .ok (devices', told) ∧
      loop' = ⟨devices', Function.update loop.speakers event.connection (some s'),
        loop.note event⟩ := by
  unfold Loop.listen at hstep
  split at hstep
  · cases hstep
  · rename_i s' hspeaker
    obtain ⟨s, hs, hutters⟩ := Option.bind_eq_some_iff.mp hspeaker
    split at hstep
    · cases hstep
    · rename_i devices' told' happly
      obtain ⟨rfl, rfl⟩ := Prod.mk.inj (Option.some.inj hstep)
      exact ⟨s, s', devices', hs, hutters, happly, rfl⟩

lemma listen_arrived (h : Kept loop) {answers : Answers κ} {device : DeviceDescription}
    {entities : List (EntityDescription κ)} {told : List (Told α κ σ)}
    (hstep : loop.listen answers (.arrived c device entities) = some (loop', told)) :
    Introduces loop c device.uniqueId loop' ∨
      (loop.devices.current c = false ∧ told = [] ∧ ∃ speaker known, loop.speakers c = some speaker ∧
        speaker.ended = false ∧
        loop' = ⟨loop.devices, Function.update loop.speakers c
          (some { speaker with known := known, inSession := true }), loop.introduced⟩) := by
  unfold Loop.listen at hstep
  split at hstep
  · cases hstep
  · rename_i speaker' hspeaker
    obtain ⟨speaker, hs, hutters⟩ := Option.bind_eq_some_iff.mp hspeaker
    simp only [Event.connection] at hs
    simp only [Speaker.utters] at hutters
    split at hutters
    · rename_i hmay
      simp only [Bool.and_eq_true, Bool.not_eq_true'] at hmay
      obtain rfl := Option.some.inj hutters
      split at hstep
      · cases hstep
      · rename_i devices' told' happly
        obtain ⟨rfl, rfl⟩ := Prod.mk.inj (Option.some.inj hstep)
        simp only [Devices.apply] at happly
        cases hcurrent : loop.devices.current c with
        | true =>
          rw [hcurrent, if_pos rfl] at happly
          obtain ⟨task, described, htask, htasks, hnodes, hcount⟩ := introduce_ok happly
          have hwas := leave_subset htask
          have hc : task.connection = c := connection_at hwas hcurrent rfl
          have hcommands : task.commands = c := (h.task _ _ hwas).2.1.trans hc
          refine .inl ⟨hcurrent, ⟨speaker, hs, hmay.1, rfl⟩, ?_, hcount, ⟨described, ?_⟩, htasks,
            ⟨task, by rw [htasks]; exact htask⟩⟩
          · simp only [Loop.note, hcurrent, ↓reduceIte]
          · show devices'.nodes = _
            rw [hnodes, hcommands]
        | false =>
          rw [hcurrent, if_neg (by simp)] at happly
          obtain ⟨rfl, rfl⟩ := Prod.mk.inj (Except.ok.inj happly)
          refine .inr ⟨rfl, rfl, speaker, some device.uniqueId, hs, hmay.1, ?_⟩
          simp [Loop.note, hcurrent, Event.connection]
    · cases hutters

lemma update_speaker {f : Connection α → Option Speaker} {s s' : Speaker} {x : Connection α}
    {P : Speaker → Prop} (hc : f c = some s) (hx : ∃ t, f x = some t ∧ P t) (hP : P s → P s') :
    ∃ t, Function.update f c (some s') x = some t ∧ P t := by
  by_cases heq : x = c
  · subst heq
    obtain ⟨t, ht, hPt⟩ := hx
    obtain rfl : t = s := Option.some.inj (ht.symm.trans hc)
    exact ⟨s', Function.update_self _ _ _, hP hPt⟩
  · rw [Function.update_of_ne heq]
    exact hx

lemma update_started {f : Connection α → Option Speaker} {s : Speaker} (s' : Speaker)
    {x : Connection α} (hc : f c = some s) : (Function.update f c (some s') x).isSome = (f x).isSome := by
  by_cases heq : x = c
  · subst heq
    rw [Function.update_self, hc]
    rfl
  · rw [Function.update_of_ne heq]

lemma Introduces.task_eq {D : UniqueId} (h : Introduces loop c D loop') {a : α} {task : Task α}
    (htask : loop'.devices.tasks[a]? = some task) : loop.devices.tasks[a]? = some task :=
  leave_subset (h.tasks ▸ htask)

lemma Introduces.runs {D E : UniqueId} {m : Node α} (h : Introduces loop c D loop')
    (hm : loop.devices.nodes[E]? = some m) (hne : E ≠ D)
    (hcurrent : loop.devices.current m.connection = true) :
    loop'.devices.current m.connection = true := by
  refine current_of_kept hcurrent fun task htask => ?_
  rcases leave_tasks loop.devices D c with htasks | ⟨previous, -, -, hfree, htasks⟩
  · rw [h.tasks, htasks]
    exact htask
  · rw [h.tasks, htasks, Map.get_erase, if_neg]
    · exact htask
    · intro haddress
      have htaken : loop.devices.takenOver previous.connection.address D = true :=
        takenOver_iff.mpr ⟨E, m, hm, haddress.symm, hne⟩
      rw [hfree] at htaken
      cases htaken

lemma Introduces.current {D : UniqueId} (h : Introduces loop c D loop') :
    loop'.devices.current c = true := by
  obtain ⟨task, htask⟩ := h.still
  exact current_iff.mpr ⟨task, htask, connection_at (h.task_eq htask) h.running rfl⟩

lemma introduces_kept {D : UniqueId} (hkept : Kept loop) (h : Introduces loop c D loop') :
    Kept loop' := by
  obtain ⟨speaker, hs, hended, hspeakers⟩ := h.speaker
  obtain ⟨described, hnodes⟩ := h.nodes
  refine ⟨fun a t ht => ?_, fun x hx => ?_, fun x hx => ?_, fun E n hn => ?_, fun E n hn hon => ?_,
    fun x E hE => ?_⟩
  · obtain ⟨haddress, hcommands, s, hs', hended', hknown⟩ := hkept.task a t (h.task_eq ht)
    refine ⟨haddress, hcommands, ?_⟩
    rw [hspeakers, h.introduced]
    by_cases heq : t.connection = c
    · rw [heq, Function.update_self, Function.update_self]
      exact ⟨_, rfl, hended, rfl⟩
    · rw [Function.update_of_ne heq, Function.update_of_ne heq]
      exact ⟨s, hs', hended', hknown⟩
  · rw [hspeakers, update_started _ hs] at hx
    rw [h.connections]
    exact hkept.started x hx
  · have hnone : loop.speakers x = none := by
      rw [hspeakers] at hx
      have hsome := update_started { speaker with known := some D, inSession := true }
        (x := x) hs
      rw [hx] at hsome
      simpa using hsome.symm
    have hne : x ≠ c := fun heq => by rw [heq, hs] at hnone; cases hnone
    rw [h.introduced, Function.update_of_ne hne]
    exact hkept.silent x hnone
  · rw [hnodes] at hn
    rcases introduced_node hn with ⟨rfl, rfl⟩ | ⟨hne, m, hm, hconnection, hcommands, -⟩
    · exact ⟨rfl, by rw [h.introduced, Function.update_self]; simp, .inl h.current⟩
    · obtain ⟨hcommands', hsome, hruns⟩ := hkept.node E m hm
      rw [hconnection, hcommands]
      refine ⟨hcommands', ?_, ?_⟩
      · rw [h.introduced]
        by_cases heq : m.connection = c
        · rw [heq, Function.update_self]
          simp
        · rw [Function.update_of_ne heq]
          exact hsome
      · refine hruns.imp (h.runs hm hne) fun hs' => ?_
        rw [hspeakers]
        exact update_speaker (P := fun s => s.ended = true) hs hs' id
  · rw [hnodes] at hn
    rcases introduced_node hn with ⟨rfl, rfl⟩ | ⟨hne, m, hm, hconnection, -, honline⟩
    · refine ⟨h.current, by rw [h.introduced, Function.update_self], ?_⟩
      rw [hspeakers, Function.update_self]
      exact ⟨_, rfl, rfl⟩
    · obtain ⟨hm', haddress⟩ := honline hon
      obtain ⟨hruns, hlast, hs'⟩ := hkept.online E m hm hm'
      have hother : m.connection ≠ c := fun heq => haddress (congrArg Connection.address heq)
      rw [hconnection]
      refine ⟨h.runs hm hne hruns, ?_, ?_⟩
      · rw [h.introduced, Function.update_of_ne hother]
        exact hlast
      · rw [hspeakers, Function.update_of_ne hother]
        exact hs'
  · rw [hnodes]
    by_cases heq : x = c
    · subst heq
      rw [h.introduced, Function.update_self] at hE
      obtain rfl := Option.some.inj hE
      exact ⟨_, by rw [Map.get_insert, if_pos rfl]⟩
    · rw [h.introduced, Function.update_of_ne heq] at hE
      obtain ⟨m, hm⟩ := hkept.known x E hE
      obtain ⟨n, hn, -⟩ := introduced_stays (c := c) (D := D)
        ⟨c, c, described, true⟩ hm
      exact ⟨n, hn⟩

lemma speaker_kept {s s' : Speaker} (h : Kept loop) (hs : loop.speakers c = some s)
    (hended : s'.ended = s.ended) (hknown : loop.devices.current c = true → s'.known = s.known)
    (hin : s.inSession = true → s'.inSession = true) :
    Kept ⟨loop.devices, Function.update loop.speakers c (some s'), loop.introduced⟩ := by
  refine ⟨fun a t ht => ?_, fun x hx => ?_, fun x hx => ?_, fun E n hn => ?_, fun E n hn hon => ?_,
    h.known⟩
  · obtain ⟨haddress, hcommands, t', hs', hended', hknown'⟩ := h.task a t ht
    refine ⟨haddress, hcommands, ?_⟩
    by_cases heq : t.connection = c
    · rw [heq]
      rw [heq] at hs' hknown'
      obtain rfl : t' = s := Option.some.inj (hs'.symm.trans hs)
      have hcurrent : loop.devices.current c = true :=
        current_iff.mpr ⟨t, by rw [← heq, haddress]; exact ht, heq⟩
      exact ⟨s', Function.update_self _ _ _, hended.trans hended',
        hknown'.trans (hknown hcurrent).symm⟩
    · exact ⟨t', (Function.update_of_ne heq _ _).trans hs', hended', hknown'⟩
  · exact h.started x (by rw [← update_started _ hs]; exact hx)
  · refine h.silent x ?_
    have hsome := update_started s' (x := x) hs
    rw [show Function.update loop.speakers c (some s') x = none from hx] at hsome
    simpa using hsome.symm
  · obtain ⟨hcommands, hsome, hruns⟩ := h.node E n hn
    exact ⟨hcommands, hsome, hruns.imp_right fun hs' =>
      update_speaker (P := fun s => s.ended = true) hs hs' fun he => hended.trans he⟩
  · obtain ⟨hruns, hlast, hs'⟩ := h.online E n hn hon
    exact ⟨hruns, hlast, update_speaker (P := fun s => s.inSession = true) hs hs' hin⟩

/-! ### What else a connection says -/

lemma Kept.conversation {s : Speaker} {E : UniqueId} {n : Node α} (h : Kept loop)
    (hn : loop.devices.nodes[E]? = some n) (hon : n.online = true) (hc : n.connection = c)
    (hs : loop.speakers c = some s) : s.known = some E ∧ s.inSession = true := by
  obtain ⟨hruns, hlast, t, ht, hin⟩ := h.online E n hn hon
  obtain ⟨task, htask, hconnection⟩ := current_iff.mp hruns
  obtain ⟨-, -, u, hu, -, hknown⟩ := h.task _ task htask
  rw [hconnection, hc] at hu hknown
  rw [hc] at ht hlast
  obtain rfl : t = s := Option.some.inj (ht.symm.trans hs)
  obtain rfl : u = t := Option.some.inj (hu.symm.trans hs)
  exact ⟨hknown.symm.trans hlast, hin⟩

lemma left_kept {s : Speaker} {D : UniqueId} {nodes : Map UniqueId (Node α)} (h : Kept loop)
    (hs : loop.speakers c = some s) (hknown : s.known = some D)
    (hnodes : ∀ (E : UniqueId) (n : Node α), nodes[E]? = some n → ∃ m, loop.devices.nodes[E]? = some m ∧
      n.connection = m.connection ∧ n.commands = m.commands ∧
        (n.online = true → m.online = true ∧ ¬ (E = D ∧ m.connection = c)))
    (hstay : ∀ (E : UniqueId) (m : Node α), loop.devices.nodes[E]? = some m →
      ∃ n, nodes[E]? = some n) :
    Kept ⟨{ loop.devices with nodes := nodes },
      Function.update loop.speakers c (some { s with inSession := false }), loop.introduced⟩ := by
  refine ⟨fun a t ht => ?_, fun x hx => ?_, fun x hx => ?_, fun E n hn => ?_, fun E n hn hon => ?_,
    fun x E hE => ?_⟩
  · obtain ⟨haddress, hcommands, t', hs', hended', hknown'⟩ := h.task a t ht
    refine ⟨haddress, hcommands, ?_⟩
    exact update_speaker (P := fun u => u.ended = false ∧ loop.introduced t.connection = u.known) hs
      ⟨t', hs', hended', hknown'⟩ id
  · exact h.started x (by rw [← update_started _ hs]; exact hx)
  · refine h.silent x ?_
    have hsome := update_started { s with inSession := false } (x := x) hs
    rw [show Function.update loop.speakers c _ x = none from hx] at hsome
    simpa using hsome.symm
  · obtain ⟨m, hm, hconnection, hcommands, -⟩ := hnodes E n hn
    obtain ⟨hcommands', hsome, hruns⟩ := h.node E m hm
    rw [hconnection, hcommands]
    exact ⟨hcommands', hsome, hruns.imp_right fun hs' =>
      update_speaker (P := fun u => u.ended = true) hs hs' id⟩
  · obtain ⟨m, hm, hconnection, -, honline⟩ := hnodes E n hn
    obtain ⟨hon', hother⟩ := honline hon
    obtain ⟨hruns, hlast, hs'⟩ := h.online E m hm hon'
    have hne : m.connection ≠ c := fun heq => by
      have hE := (h.conversation hm hon' heq hs).1
      exact hother ⟨Option.some.inj (hE.symm.trans hknown), heq⟩
    rw [hconnection]
    obtain ⟨t, ht, hsession⟩ := hs'
    exact ⟨hruns, hlast, t, (Function.update_of_ne hne _ _).trans ht, hsession⟩
  · obtain ⟨m, hm⟩ := h.known x E hE
    exact hstay E m hm

lemma locked_kept {s : Speaker} (h : Kept loop) (hs : loop.speakers c = some s)
    (hin : s.inSession = false) (hnodes : devices'.nodes = loop.devices.nodes)
    (hcount : devices'.connections = loop.devices.connections)
    (htasks : ∀ (a : α) (t : Task α), devices'.tasks[a]? = some t ↔
      loop.devices.tasks[a]? = some t ∧ t.connection ≠ c) :
    Kept ⟨devices', Function.update loop.speakers c (some { s with ended := true }),
      loop.introduced⟩ := by
  have hruns : ∀ x, x ≠ c → loop.devices.current x = true → devices'.current x = true := by
    intro x hne hx
    obtain ⟨t, ht, rfl⟩ := current_iff.mp hx
    exact current_iff.mpr ⟨t, (htasks _ t).mpr ⟨ht, hne⟩, rfl⟩
  refine ⟨fun a t ht => ?_, fun x hx => ?_, fun x hx => ?_, fun E n hn => ?_, fun E n hn hon => ?_,
    fun x E hE => ?_⟩
  · obtain ⟨ht, hne⟩ := (htasks a t).mp ht
    obtain ⟨haddress, hcommands, t', hs', hended', hknown'⟩ := h.task a t ht
    exact ⟨haddress, hcommands, t', (Function.update_of_ne hne _ _).trans hs', hended', hknown'⟩
  · show x.id ≤ devices'.connections
    rw [hcount]
    exact h.started x (by rw [← update_started _ hs]; exact hx)
  · refine h.silent x ?_
    have hsome := update_started { s with ended := true } (x := x) hs
    rw [show Function.update loop.speakers c _ x = none from hx] at hsome
    simpa using hsome.symm
  · obtain ⟨hcommands, hsome, hrun⟩ := h.node E n (hnodes ▸ hn)
    refine ⟨hcommands, hsome, ?_⟩
    by_cases heq : n.connection = c
    · exact .inr ⟨_, by rw [heq]; exact Function.update_self _ _ _, rfl⟩
    · refine hrun.imp (hruns _ heq) fun ⟨t, ht, hended⟩ => ?_
      exact ⟨t, (Function.update_of_ne heq _ _).trans ht, hended⟩
  · obtain ⟨hrun, hlast, t, ht, hsession⟩ := h.online E n (hnodes ▸ hn) hon
    have hne : n.connection ≠ c := fun heq => by
      rw [heq] at ht
      obtain rfl : t = s := Option.some.inj (ht.symm.trans hs)
      rw [hin] at hsession
      cases hsession
    exact ⟨hruns _ hne hrun, hlast, t, (Function.update_of_ne hne _ _).trans ht, hsession⟩
  · show ∃ n, devices'.nodes[E]? = some n
    rw [hnodes]
    exact h.known x E hE

lemma lock_same (h : Kept loop) {answers : Answers κ} {why : String} {told : List (Told α κ σ)}
    (happly : loop.devices.apply answers (.locked c why : Event α κ σ) = .ok (devices', told)) :
    devices'.nodes = loop.devices.nodes ∧ devices'.connections = loop.devices.connections ∧
      ∀ (a : α) (t : Task α), devices'.tasks[a]? = some t ↔
        loop.devices.tasks[a]? = some t ∧ t.connection ≠ c := by
  simp only [Devices.apply] at happly
  split at happly
  · rename_i hcurrent
    have herased : ∀ (a : α) (t : Task α), (loop.devices.tasks.erase c.address)[a]? = some t ↔
        loop.devices.tasks[a]? = some t ∧ t.connection ≠ c := by
      intro a t
      rw [Map.get_erase]
      split
      · rename_i ha
        constructor
        · intro ht
          cases ht
        · rintro ⟨ht, hne⟩
          exact absurd (connection_at ht hcurrent ha) hne
      · rename_i ha
        refine ⟨fun ht => ⟨ht, fun heq => ha ?_⟩, And.left⟩
        rw [← heq]
        exact (h.task a t ht).1
    split at happly
    · obtain ⟨rfl, -⟩ := Prod.mk.inj (Except.ok.inj happly)
      obtain ⟨htasks, hnodes, hcount⟩ := wait_same { loop.devices with
        tasks := loop.devices.tasks.erase c.address
        unreachable := loop.devices.unreachable.erase c.address } _ _ why
      exact ⟨hnodes, hcount, fun a t => by rw [htasks]; exact herased a t⟩
    · obtain ⟨rfl, -⟩ := Prod.mk.inj (Except.ok.inj happly)
      exact ⟨rfl, rfl, herased⟩
  · rename_i hgone
    obtain ⟨rfl, -⟩ := Prod.mk.inj (Except.ok.inj happly)
    refine ⟨rfl, rfl, fun a t => ⟨fun ht => ⟨ht, fun heq => hgone ?_⟩, And.left⟩⟩
    refine current_iff.mpr ⟨t, ?_, heq⟩
    rw [← heq, (h.task a t ht).1]
    exact ht

/-- What a step does of the tables: an introduction, the end of what was locked, or only what keeps
every task. -/
lemma listen_step (h : Kept loop) {answers : Answers κ} {event : Event α κ σ}
    {told : List (Told α κ σ)} (hstep : loop.listen answers event = some (loop', told)) :
    (∃ device entities, event = .arrived event.connection device entities ∧
      Introduces loop event.connection device.uniqueId loop') ∨
    (∃ why, event = .locked event.connection why ∧ Kept loop' ∧ ∀ (a : α) (t : Task α),
      loop.devices.tasks[a]? = some t → t.connection ≠ event.connection →
        loop'.devices.tasks[a]? = some t) ∨
    (Kept loop' ∧ loop'.devices.tasks = loop.devices.tasks) := by
  cases event with
  | arrived c device entities =>
    rcases listen_arrived h hstep with hin | ⟨hgone, -, speaker, known, hs, -, rfl⟩
    · exact .inl ⟨device, entities, rfl, hin⟩
    · refine .inr (.inr ⟨speaker_kept h hs rfl (fun hcurrent => ?_) fun _ => rfl, rfl⟩)
      rw [hgone] at hcurrent
      cases hcurrent
  | reported c device report =>
    obtain ⟨s, s', devices', hs, hutters, happly, rfl⟩ := listen_eq hstep
    simp only [Speaker.utters, Option.ite_none_right_eq_some] at hutters
    obtain ⟨-, hs'⟩ := hutters
    obtain rfl := Option.some.inj hs'
    have hdevices : devices' = loop.devices := by
      simp only [Devices.apply] at happly
      split at happly
      · split at happly <;> exact (Prod.mk.inj (Except.ok.inj happly)).1.symm
      · exact (Prod.mk.inj (Except.ok.inj happly)).1.symm
    subst hdevices
    exact .inr (.inr ⟨speaker_kept h hs rfl (fun _ => rfl) id, rfl⟩)
  | left c device why =>
    obtain ⟨s, s', devices', hs, hutters, happly, rfl⟩ := listen_eq hstep
    simp only [Speaker.utters, Option.ite_none_right_eq_some, Bool.and_eq_true,
      decide_eq_true_eq] at hutters
    obtain ⟨⟨-, hknown⟩, hs'⟩ := hutters
    obtain rfl := Option.some.inj hs'
    have hconversation := fun E m (hm : loop.devices.nodes[E]? = some m) hon hc =>
      Option.some.inj ((h.conversation hm hon hc hs).1.symm.trans hknown)
    simp only [Devices.apply] at happly
    split at happly
    · rename_i hnone
      obtain rfl := (Prod.mk.inj (Except.ok.inj happly)).1
      refine .inr (.inr ⟨left_kept h hs hknown (fun E n hn => ⟨n, hn, rfl, rfl, fun hon => ⟨hon, ?_⟩⟩)
        (fun E m hm => ⟨m, hm⟩), rfl⟩)
      rintro ⟨rfl, -⟩
      rw [hnone] at hn
      cases hn
    · rename_i node hnode
      split at happly
      · split at happly
        · rename_i hspeaks _
          obtain rfl := (Prod.mk.inj (Except.ok.inj happly)).1
          refine .inr (.inr ⟨left_kept h hs hknown (fun E n hn => ?_) (fun E m hm => ?_), rfl⟩)
          · rw [Map.get_insert] at hn
            split at hn
            · rename_i hD
              subst hD
              obtain rfl := Option.some.inj hn
              exact ⟨node, hnode, rfl, rfl, fun hon => by cases hon⟩
            · rename_i hD
              exact ⟨n, hn, rfl, rfl, fun hon => ⟨hon, fun heq => hD heq.1.symm⟩⟩
          · rw [Map.get_insert]
            split
            · exact ⟨_, rfl⟩
            · exact ⟨m, hm⟩
        · cases happly
      · rename_i hsilent
        obtain rfl := (Prod.mk.inj (Except.ok.inj happly)).1
        refine .inr (.inr ⟨left_kept h hs hknown
          (fun E n hn => ⟨n, hn, rfl, rfl, fun hon => ⟨hon, ?_⟩⟩) (fun E m hm => ⟨m, hm⟩), rfl⟩)
        rintro ⟨rfl, hc⟩
        obtain rfl := Option.some.inj (hn.symm.trans hnode)
        exact hsilent ⟨hc, hon⟩
  | unreachable c why =>
    obtain ⟨s, s', devices', hs, hutters, happly, rfl⟩ := listen_eq hstep
    simp only [Speaker.utters, Option.ite_none_right_eq_some] at hutters
    obtain ⟨-, hs'⟩ := hutters
    obtain rfl := Option.some.inj hs'
    have hkept := speaker_kept h hs rfl (fun _ => rfl) id
    simp only [Devices.apply] at happly
    split at happly
    · obtain rfl := (Prod.mk.inj (Except.ok.inj happly)).1
      exact .inr (.inr ⟨⟨hkept.task, hkept.started, hkept.silent, hkept.node, hkept.online,
        hkept.known⟩, rfl⟩)
    · obtain rfl := (Prod.mk.inj (Except.ok.inj happly)).1
      exact .inr (.inr ⟨hkept, rfl⟩)
  | locked c why =>
    obtain ⟨s, s', devices', hs, hutters, happly, rfl⟩ := listen_eq hstep
    simp only [Speaker.utters, Option.ite_none_right_eq_some, Bool.and_eq_true,
      Bool.not_eq_true'] at hutters
    obtain ⟨⟨-, hin⟩, hs'⟩ := hutters
    obtain rfl := Option.some.inj hs'
    obtain ⟨hnodes, hcount, htasks⟩ := lock_same h happly
    exact .inr (.inl ⟨why, rfl, locked_kept h hs hin hnodes hcount htasks,
      fun a t ht hne => (htasks a t).mpr ⟨ht, hne⟩⟩)

/-! ### Every run -/

lemma start_kept : Kept (.start : Loop α) := by
  refine ⟨fun a t ht => ?_, fun c hc => ?_, fun c _ => rfl, fun D n hn => ?_, fun D n hn => ?_,
    fun c D hD => ?_⟩
  · simp [Loop.start, Devices.empty] at ht
  · cases hc
  · simp [Loop.start, Devices.empty] at hn
  · simp [Loop.start, Devices.empty] at hn
  · cases hD

lemma step_kept (h : Kept loop) {settings : Settings Key} {happening : Happening α κ σ}
    {told : List (Told α κ σ)} (hstep : loop.step settings happening = some (loop', told)) :
    Kept loop' := by
  cases happening with
  | announced announced =>
    obtain ⟨rfl, -⟩ := Prod.mk.inj (Option.some.inj hstep)
    exact hear_kept h settings announced
  | spoke answers event =>
    rcases listen_step h hstep with ⟨_, _, -, hin⟩ | ⟨_, -, hkept, -⟩ | ⟨hkept, -⟩
    · exact introduces_kept h hin
    · exact hkept
    · exact hkept
  | called entity sent =>
    obtain ⟨rfl, -⟩ := Prod.mk.inj (Option.some.inj hstep)
    exact h

lemma heeding_kept {settings : Settings Key} (h : Heeding κ σ settings loop) : Kept loop := by
  induction h with
  | start => exact start_kept
  | step _ _ hstep ih => exact step_kept ih hstep

/-! ### What is passed on -/

lemma apply_calls {answers : Answers κ} {event : Event α κ σ} {told : List (Told α κ σ)}
    (h : devices.apply answers event = .ok (devices', told)) (entity : UniqueId) :
    .call entity c ∉ told := by
  cases event with
  | arrived x device entities =>
    simp only [Devices.apply] at h
    split at h
    · unfold Devices.introduce at h
      split at h
      · dsimp only at h
        split at h
        · split at h
          · cases h
          · obtain ⟨-, rfl⟩ := Prod.mk.inj (Except.ok.inj h)
            simp
        · cases h
      · cases h
    · obtain ⟨-, rfl⟩ := Prod.mk.inj (Except.ok.inj h)
      simp
  | reported x device report =>
    simp only [Devices.apply] at h
    split at h
    · split at h <;> (obtain ⟨-, rfl⟩ := Prod.mk.inj (Except.ok.inj h); simp)
    · obtain ⟨-, rfl⟩ := Prod.mk.inj (Except.ok.inj h)
      simp
  | left x device why =>
    simp only [Devices.apply] at h
    split at h
    · obtain ⟨-, rfl⟩ := Prod.mk.inj (Except.ok.inj h)
      simp
    · split at h
      · split at h
        · obtain ⟨-, rfl⟩ := Prod.mk.inj (Except.ok.inj h)
          simp
        · cases h
      · obtain ⟨-, rfl⟩ := Prod.mk.inj (Except.ok.inj h)
        simp
  | unreachable x why =>
    simp only [Devices.apply] at h
    split at h <;> (obtain ⟨-, rfl⟩ := Prod.mk.inj (Except.ok.inj h); simp)
  | locked x why =>
    simp only [Devices.apply] at h
    split at h
    · split at h <;> (obtain ⟨-, rfl⟩ := Prod.mk.inj (Except.ok.inj h); simp)
    · obtain ⟨-, rfl⟩ := Prod.mk.inj (Except.ok.inj h)
      simp

lemma route_speaker (h : Kept loop) {entity : UniqueId} {sent : TrySend}
    (hcall : loop.devices.route entity sent = (.call entity c : Told α κ σ)) :
    ∃ (D : UniqueId) (n : Node α), loop.devices.nodes[D]? = some n ∧ entity ∈ n.entities ∧
      loop.introduced c = some D := by
  unfold Devices.route at hcall
  split at hcall
  · cases hcall
  · rename_i D node hfound
    have hnode : loop.devices.nodes[D]? = some node :=
      Std.ExtTreeMap.mem_toList_iff_getElem?_eq_some.mp (List.mem_of_find?_eq_some hfound)
    split at hcall
    · rename_i hon
      cases sent with
      | ok =>
        injection hcall with _ hc
        refine ⟨D, node, hnode, by simpa using List.find?_some hfound, ?_⟩
        rw [← hc, (h.node D node hnode).1]
        exact (h.online D node hnode hon).2.1
      | full => cases hcall
      | closed => cases hcall
    · cases hcall

lemma report_speaker (h : Kept loop) {answers : Answers κ} {D : UniqueId} {report : StateReport σ}
    {told : List (Told α κ σ)} (hthere : (loop.devices.nodes[D]?).isSome = true)
    (hstep : loop.listen answers (.reported c D report) = some (loop', told))
    (htold : .report report ∈ told) :
    (∃ n, loop.devices.nodes[D]? = some n ∧ n.connection = c) ∧ loop.introduced c = some D := by
  obtain ⟨s, s', devices', hs, hutters, happly, -⟩ := listen_eq hstep
  simp only [Speaker.utters, Option.ite_none_right_eq_some, Bool.and_eq_true, Bool.not_eq_true',
    decide_eq_true_eq] at hutters
  obtain ⟨⟨⟨hended, -⟩, hknown⟩, -⟩ := hutters
  obtain ⟨node, hnode⟩ := Option.isSome_iff_exists.mp hthere
  simp only [Devices.apply, hnode] at happly
  split at happly
  · rename_i hc
    refine ⟨⟨node, hnode, hc⟩, ?_⟩
    rcases (h.node D node hnode).2.2 with hruns | ⟨t, ht, hgone⟩
    · obtain ⟨task, htask, htc⟩ := current_iff.mp hruns
      obtain ⟨-, -, u, hu, -, hintroduced⟩ := h.task _ task htask
      rw [htc, hc] at hu hintroduced
      obtain rfl : u = s := Option.some.inj (hu.symm.trans hs)
      exact hintroduced.trans hknown
    · rw [hc] at ht
      obtain rfl : t = s := Option.some.inj (ht.symm.trans hs)
      rw [hended] at hgone
      cases hgone
  · obtain ⟨-, rfl⟩ := Prod.mk.inj (Except.ok.inj happly)
    cases htold

lemma stopped_speaker {D : UniqueId} (hkept : Kept loop) (h : Introduces loop c D loop')
    (hheeds : ∀ n : Node α, loop.devices.nodes[D]? = some n → n.connection ≠ c →
      loop.devices.takenOver n.connection.address D = true ∨
        n.connection.address ≠ c.address ∧ ∀ task : Task α,
          loop.devices.tasks[n.connection.address]? = some task →
            task.connection = n.connection ∨
              ∃ (E : UniqueId) (m : Node α), loop.introduced task.connection = some E ∧
                loop.devices.nodes[E]? = some m ∧ m.connection ≠ task.connection)
    {a : α} {task : Task α} (htask : loop.devices.tasks[a]? = some task)
    (hstopped : ∀ task', loop'.devices.tasks[a]? = some task' →
      task'.connection ≠ task.connection) :
    ∃ (E : UniqueId) (n : Node α), loop'.introduced task.connection = some E ∧
      loop'.devices.nodes[E]? = some n ∧ n.connection ≠ task.connection := by
  obtain ⟨described, hnodes⟩ := h.nodes
  -- Where the device it introduced is, once this one has moved.
  have hends : ∀ (E : UniqueId) (m : Node α), loop.introduced task.connection = some E →
      task.connection ≠ c → loop.devices.nodes[E]? = some m →
        (E ≠ D → m.connection ≠ task.connection) →
          ∃ (E : UniqueId) (n : Node α), loop'.introduced task.connection = some E ∧
            loop'.devices.nodes[E]? = some n ∧ n.connection ≠ task.connection := by
    intro E m hE hne hm helse
    have hE' : loop'.introduced task.connection = some E := by
      rw [h.introduced, Function.update_of_ne hne]
      exact hE
    by_cases hD : E = D
    · subst hD
      refine ⟨E, ⟨c, c, described, true⟩, hE', ?_, fun heq => hne heq.symm⟩
      rw [hnodes, Map.get_insert, if_pos rfl]
    · obtain ⟨n, hn, hconnection⟩ := introduced_stays (c := c) (D := D)
        ⟨c, c, described, true⟩ hm
      exact ⟨E, n, hE', hnodes ▸ hn, by rw [hconnection hD]; exact helse hD⟩
  rcases leave_tasks loop.devices D c with htasks | ⟨previous, hprevious, hmoved, hfree, htasks⟩
  · refine absurd rfl (hstopped task ?_)
    rw [h.tasks, htasks]
    exact htask
  · have ha : previous.connection.address = a := by
      by_contra hne
      refine absurd rfl (hstopped task ?_)
      rw [h.tasks, htasks, Map.get_erase, if_neg hne]
      exact htask
    subst ha
    rcases hheeds previous hprevious hmoved with htaken | ⟨haddress, hown⟩
    · rw [hfree] at htaken
      cases htaken
    · have hne : task.connection ≠ c := fun heq => haddress (by
        rw [← heq, (hkept.task _ task htask).1])
      rcases hown task htask with hsame | ⟨E, m, hE, hm, helse⟩
      · have hsome := (hkept.node D previous hprevious).2.1
        obtain ⟨E, hE⟩ := Option.ne_none_iff_exists'.mp hsome
        obtain ⟨m, hm⟩ := hkept.known _ E hE
        rw [← hsame] at hE
        refine hends E m hE hne hm fun hD heq => ?_
        have htaken : loop.devices.takenOver previous.connection.address D = true :=
          takenOver_iff.mpr ⟨E, m, hm, by rw [heq, hsame], hD⟩
        rw [hfree] at htaken
        cases htaken
      · exact hends E m hE hne hm fun _ => helse

inductive Reached (κ σ : Type) (settings : Settings Key) : Loop α → Prop
  | start : Reached κ σ settings .start
  | step {loop loop' : Loop α} {happening : Happening α κ σ} {told : List (Told α κ σ)} :
      Reached κ σ settings loop → loop.step settings happening = some (loop', told) →
        Reached κ σ settings loop'

def Loop.plays (settings : Settings Key) (loop : Loop α) : List (Happening α κ σ) → Option (Loop α)
  | [] => some loop
  | happening :: rest => (loop.step settings happening).bind fun after => after.1.plays settings rest

lemma Reached.plays {settings : Settings Key} {happenings : List (Happening α κ σ)}
    (h : Reached κ σ settings loop) (hplays : loop.plays settings happenings = some loop') :
    Reached κ σ settings loop' := by
  induction happenings generalizing loop with
  | nil => exact Option.some.inj hplays ▸ h
  | cons happening rest ih =>
    obtain ⟨⟨after, told⟩, hstep, hrest⟩ := Option.bind_eq_some_iff.mp hplays
    exact ih (h.step hstep) hrest

end

namespace Sample

def mac : Mac := ⟨"A0:B1:C2:D3:E4:F5", by decide⟩

lemma lamp_name : checkName "Lamp" = .ok () := by decide

def lamp : DeviceDescription :=
  ⟨⟨"A0:B1:C2:D3:E4:F5", by decide⟩, ⟨"Lamp", lamp_name⟩, none, none, none, none, none, none, none⟩

def plug : DeviceDescription :=
  ⟨⟨"A0:B1:C2:D3:E4:F6", by decide⟩, ⟨"Plug", by decide⟩, none, none, none, none, none, none, none⟩

def keys : Settings Unit := (∅ : Settings Unit).insert mac (.ok ())

def takes : Answers Unit := ⟨true, fun _ => true, fun _ => true⟩

def first : Connection ℕ := ⟨1, 10⟩
def second : Connection ℕ := ⟨2, 10⟩
def third : Connection ℕ := ⟨3, 11⟩

def moving : List (Happening ℕ Unit Unit) := [
  .announced ⟨10, some mac, "lamp", true⟩,
  .spoke takes (.arrived first lamp []),
  .spoke takes (.left first lamp.uniqueId ""),
  .spoke takes (.locked first "the key was refused"),
  .announced ⟨10, none, "plug", false⟩,
  .announced ⟨11, none, "lamp", false⟩]

def arriving : Happening ℕ Unit Unit := .spoke takes (.arrived third lamp [])

def replaced : List (Happening ℕ Unit Unit) := [
  .announced ⟨10, none, "lamp", false⟩,
  .spoke takes (.arrived first lamp []),
  .spoke takes (.left first lamp.uniqueId ""),
  .announced ⟨11, none, "lamp", false⟩,
  .spoke takes (.arrived ⟨2, 11⟩ lamp []),
  .spoke takes (.arrived first plug [])]

def level : StateReport Unit := ⟨plug.uniqueId, none, ∅, none, false⟩

def reporting : Happening ℕ Unit Unit := .spoke takes (.reported first plug.uniqueId level)

def played (happenings : List (Happening ℕ Unit Unit)) : Loop ℕ :=
  (Loop.plays keys .start happenings).getD .start

lemma reached_played (happenings : List (Happening ℕ Unit Unit)) :
    Reached Unit Unit keys (played happenings) := by
  unfold played
  cases h : Loop.plays keys (.start : Loop ℕ) happenings with
  | none => exact .start
  | some loop => exact Reached.start.plays h

end Sample

end Esphome

end Irori

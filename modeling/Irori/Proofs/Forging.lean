import Irori.Proofs.Advertising

/-!
# A forged advert

Anyone in range can broadcast an advert. Where the cloud contradicts what a device heard lately
last said of its bolt, door, contact or leak, its adverts are left out of those, and what the cloud
says of one of them from then on is what is reported, until an answer comes that doesn't contradict
the adverts. An answer that comes when the device was quiet doesn't, nor does one that names none
of the four, and what the answers don't name stays what an advert made it.
-/

namespace Irori

namespace SwitchBot

open World

structure Record where
  world : World
  /-- What every list that came has, and what the last run knew. -/
  named : List String
  /-- What the account's last list has. -/
  listed : List String
  /-- What the last advert of a device said of the four. -/
  adverts : String → Reading
  /-- What the cloud said of the four, each the last time it named it. -/
  said : String → Reading
  /-- A cloud answer contradicted its adverts, and none has agreed with them since. -/
  disputed : String → Bool
  /-- What the cloud said of the four since an answer contradicted the adverts of a device heard
  lately, as long as every answer since has. -/
  stands : String → Option Reading

def agrees (cloud adverts : Reading) : Bool :=
  [Aspect.bolt, .door, .contact, .leak].any (fun a =>
    (cloud.word a).isSome && cloud.word a == adverts.word a) && !contradicts cloud adverts

namespace Record

variable (env : Env)

def hear (r : Record) (advert : Advert) : Record :=
  match r.world.overheard advert with
  | none => r
  | some heard =>
    { r with adverts := Function.update r.adverts heard.mac (guarded heard.reading) }

def answer (r : Record) (moment : Moment) (id : String) (reading : Reading) : Record :=
  let contradicted := contradicts reading (r.adverts id)
  { r with
    said := Function.update r.said id ((r.said id).merge (guarded reading))
    disputed := Function.update r.disputed id
      (contradicted || (r.disputed id && !agrees reading (r.adverts id)))
    stands := Function.update r.stands id
      (if r.world.heardLately env moment id && contradicted then
        some (((r.stands id).getD Reading.empty).merge (guarded reading))
      else none) }

/-- What happens, before the world has taken it in. -/
def note (r : Record) (moment : Moment) : Event → Record
  | .heard advert => r.hear advert
  | .listed list =>
    if r.world.cloud then
      { r with named := r.named ++ list.map (·.id), listed := list.map (·.id) }
    else r
  | .answered id causedBy (.ok status) =>
    if r.world.asked.contains (id, causedBy) then
      match r.world.devices[id]? with
      | none => r
      | some known => r.answer env moment id (Reading.fromStatus env.decimals known.family status)
    else r
  | _ => r

/-- Nothing was heard of a device that isn't known. -/
def within (r : Record) (world : World) : Record :=
  { r with
    world := world
    adverts := fun id => if (world.devices[id]?).isSome then r.adverts id else Reading.empty
    stands := fun id => if (world.devices[id]?).isSome then r.stands id else none }

def step (r : Record) (moment : Moment) (e : Event) : Record :=
  (r.note env moment e).within (r.world.step env moment e)

def start (cloud listens : Bool) (moment : Moment) (saved : List Saved) : Record :=
  ⟨(fresh cloud listens).restore env moment saved, saved.map (·.listed.id), [],
    fun _ => Reading.empty, fun _ => Reading.empty, fun _ => false, fun _ => none⟩

def after (r : Record) (events : List (Moment × Event)) : Record :=
  events.foldl (fun r e => r.step env e.1 e.2) r

end Record

def spoken (r r' : Record) : List (String × Aspect × Word) :=
  (r'.world.told.drop r.world.told.length).filterMap Told.word

def Record.word (r : Record) (id : String) (a : Aspect) : Option Word :=
  (r.world.devices[id]?).bind (·.reading.word a)

/-- What is said of a device whose adverts the cloud contradicted, and hasn't agreed with since, is
the last the cloud said. -/
def GoesByCloud (r r' : Record) : Prop :=
  ∀ x ∈ spoken r r', r'.disputed x.1 = true → (r'.said x.1).word x.2.1 = some x.2.2

instance (r r' : Record) : Decidable (GoesByCloud r r') :=
  inferInstanceAs (Decidable (∀ x ∈ spoken r r', r'.disputed x.1 = true →
    (r'.said x.1).word x.2.1 = some x.2.2))

/-- With an account, an advert of a device its list hasn't got says nothing. -/
def LeavesBe (r : Record) (e : Event) (r' : Record) : Prop :=
  ∀ (advert : Advert) (mac : String), e = .heard advert → r.world.cloud = true →
    advert.mac = some mac → mac ∉ r.listed → r'.world.told = r.world.told

structure HeedsCloud (r : Record) (e : Event) (r' : Record) : Prop where
  /-- While the cloud's word stands against a device's adverts, what is said of one of the four
  that the cloud has named since is the last it said. -/
  word : ∀ x ∈ spoken r r', ∀ said : Reading, r'.stands x.1 = some said →
    said.word x.2.1 = none ∨ said.word x.2.1 = some x.2.2
  /-- And no advert changes any of the four. -/
  unmoved : ∀ (advert : Advert) (id : String), e = .heard advert → (r.stands id).isSome = true →
    ∀ a, r'.word id a = r.word id a
  /-- An advert from an address that isn't the one it names is noted and no more. -/
  impostor : ∀ (advert : Advert) (heardFrom : Vector UInt8 6) (data : List UInt8),
    e = .heard advert → advert.address = some heardFrom → heardFrom.toList.any (· ≠ 0) = true →
      advert.manufacturer[company]? = some data → 6 ≤ data.length →
        data.take 6 ≠ heardFrom.toList →
          ∃ impostors, r'.world = { r.world with impostors := impostors }
  /-- With an account, an advert of a device that no list had, and the last run didn't know, is
  noted and no more. -/
  stranger : ∀ (advert : Advert) (mac : String), e = .heard advert → r.world.cloud = true →
    advert.mac = some mac → mac ∉ r.named →
      ∃ radio strangers impostors, r'.world =
        { r.world with radio := radio, strangers := strangers, impostors := impostors }

structure Record.Agrees (r : Record) : Prop where
  proper : r.world.Proper
  known : ∀ (id : String) (known : Known), r.world.devices[id]? = some known →
    known.advertSaid = r.adverts id ∧ known.distrusted = (r.stands id).isSome ∧
      ∀ said, r.stands id = some said → ∀ a w, said.word a = some w →
        known.reading.word a = some w
  gone : ∀ id : String, r.world.devices[id]? = none →
    r.adverts id = Reading.empty ∧ r.stands id = none
  named : r.world.cloud = true → ∀ (id : String) (known : Known),
    r.world.devices[id]? = some known → id ∈ r.named

section

variable {r : Record} {env : Env} {w' : World}

lemma within_known {id : String} {known : Known} (h : w'.devices[id]? = some known) :
    (r.within w').adverts id = r.adverts id ∧ (r.within w').stands id = r.stands id :=
  ⟨if_pos (by rw [h]; rfl), if_pos (by rw [h]; rfl)⟩

lemma within_gone {id : String} (h : w'.devices[id]? = none) :
    (r.within w').adverts id = Reading.empty ∧ (r.within w').stands id = none :=
  ⟨if_neg (by rw [h]; simp), if_neg (by rw [h]; simp)⟩

lemma within_update {mac : String} {said : Reading} (h : w'.devices[mac]? = none) :
    ({ r with adverts := Function.update r.adverts mac said } : Record).within w' =
      r.within w' := by
  have hadverts : (fun id => if (w'.devices[id]?).isSome then
      Function.update r.adverts mac said id else Reading.empty) =
      fun id => if (w'.devices[id]?).isSome then r.adverts id else Reading.empty := by
    funext id
    by_cases hid : id = mac
    · subst hid
      rw [h]
      rfl
    · rw [Function.update_of_ne hid]
  unfold Record.within
  rw [hadverts]

lemma agrees_rests (h : r.Agrees) (hrests : Rests r.world w') (hcomes : r.world.cloud = true →
    ∀ (id : String) (known' : Known), w'.devices[id]? = some known' → r.world.devices[id]? = none →
      id ∈ r.named) : (r.within w').Agrees := by
  refine ⟨hrests.proper h.proper, ?_, ?_, ?_⟩
  · intro id known' (hknown' : w'.devices[id]? = some known')
    obtain ⟨hadverts, hstill⟩ := within_known (r := r) hknown'
    rw [hadverts, hstill]
    rcases hrests.was h.proper id known' hknown' with ⟨known, hknown, hsame⟩ | ⟨hnone, hnew⟩
    · obtain ⟨hsaid, htrust, hwords⟩ := h.known id known hknown
      rw [hsame.advertSaid, hsame.distrusted, hsame.reading]
      exact ⟨hsaid, htrust, hwords⟩
    · obtain ⟨hsaid, hstands⟩ := h.gone id hnone
      rw [hnew.advertSaid, hnew.distrusted, hsaid, hstands]
      exact ⟨rfl, rfl, by simp⟩
  · exact fun id hnone => within_gone hnone
  · intro hcloud id known' hknown'
    have hcloud' : r.world.cloud = true := hrests.cloud ▸ hcloud
    cases hknown : r.world.devices[id]? with
    | some known => exact h.named hcloud' id known hknown
    | none => exact hcomes hcloud' id known' hknown' hknown

lemma word_of_agrees {r' : Record} (h : r'.Agrees) (htells : Tells r.world r'.world) :
    ∀ x ∈ spoken r r', ∀ said : Reading, r'.stands x.1 = some said →
      said.word x.2.1 = none ∨ said.word x.2.1 = some x.2.2 := by
  intro x hx said hstands
  obtain ⟨told, htold, htrue⟩ := htells
  unfold spoken at hx
  rw [htold, List.drop_left] at hx
  obtain ⟨known, hknown, hword⟩ := htrue x hx
  cases hsaid : said.word x.2.1 with
  | none => exact .inl rfl
  | some word =>
    have hreading := (h.known x.1 known hknown).2.2 said hstands x.2.1 word hsaid
    exact .inr (hreading.symm.trans hword)

lemma agrees_alters {id : String} {after : Known} {r' : Record} (h : r.Agrees)
    (halters : Alters id after r.world w')
    (hnamed : r.world.cloud = true → id ∈ r.named ∧ ∀ other ∈ r.named, other ∈ r'.named)
    (hother : ∀ other, other ≠ id → r'.adverts other = r.adverts other ∧
      r'.stands other = r.stands other)
    (hhere : after.advertSaid = r'.adverts id ∧ after.distrusted = (r'.stands id).isSome ∧
      ∀ said, r'.stands id = some said → ∀ a w, said.word a = some w →
        after.reading.word a = some w) : (r'.within w').Agrees := by
  refine ⟨halters.proper, ?_, fun other hnone => within_gone hnone, ?_⟩
  · intro other known' (hknown' : w'.devices[other]? = some known')
    obtain ⟨hadverts, hstill⟩ := within_known (r := r') hknown'
    rw [hadverts, hstill]
    by_cases hid : other = id
    · subst hid
      obtain ⟨k, hk, hsame⟩ := halters.here
      obtain rfl : k = known' := Option.some.inj (hk.symm.trans hknown')
      rw [hsame.advertSaid, hsame.distrusted, hsame.reading]
      exact hhere
    · obtain ⟨known, hknown, hsame⟩ := halters.elsewhere other known' hid hknown'
      obtain ⟨hadverts', hstands'⟩ := hother other hid
      rw [hadverts', hstands', hsame.advertSaid, hsame.distrusted, hsame.reading]
      exact h.known other known hknown
  · intro hcloud other known' hknown'
    have hcloud' : r.world.cloud = true := halters.cloud ▸ hcloud
    obtain ⟨hid, hmore⟩ := hnamed hcloud'
    by_cases hsame : other = id
    · exact hmore _ (hsame ▸ hid)
    · obtain ⟨known, hknown, -⟩ := halters.elsewhere other known' hsame hknown'
      exact hmore other (h.named hcloud' other known hknown)

lemma heed_agrees {known : Known} {now : Nat} {said reading : Reading}
    (htrust : known.distrusted = true)
    (hwords : ∀ a w, said.word a = some w → known.reading.word a = some w) :
    ∀ a w, said.word a = some w → (known.heed now reading).reading.word a = some w := by
  intro a w hsaid
  simp [Known.heed, htrust, hwords a w hsaid]

lemma agrees_hear {moment : Moment} {advert : Advert} (h : r.Agrees) :
    ((r.hear advert).within (r.world.hear env moment advert)).Agrees := by
  unfold Record.hear
  have hhears : Hears env moment advert r.world (r.world.hear env moment advert) :=
    hear_hears moment advert h.proper
  cases hhears with
  | unheard hnot hrests hdevices htold =>
    rw [hnot]
    exact agrees_rests h hrests fun _ id known' hknown' hnone => by
      rw [hdevices, hnone] at hknown'
      cases hknown'
  | stranger heard hheard hgone hrests hdevices =>
    rw [hheard]
    dsimp only
    rw [within_update hgone]
    exact agrees_rests h hrests fun _ id known' hknown' hnone => by
      rw [hdevices, hnone] at hknown'
      cases hknown'
  | taken heard hheard before hbefore halters =>
    rw [hheard]
    refine agrees_alters h halters ?_ ?_ ?_
    · intro hcloud
      rcases hbefore with hbefore | ⟨-, hcloud', -⟩
      · exact ⟨h.named hcloud _ _ hbefore, fun _ h => h⟩
      · simp [hcloud] at hcloud'
    · intro other hother
      exact ⟨Function.update_of_ne hother _ _, rfl⟩
    · simp only [Function.update_self]
      rcases hbefore with hbefore | ⟨hnone, -, hnew⟩
      · obtain ⟨-, htrust, hwords⟩ := h.known _ before hbefore
        refine ⟨rfl, htrust, fun said hstands => heed_agrees ?_ (hwords said hstands)⟩
        rw [htrust, hstands]
        rfl
      · obtain ⟨-, hstands⟩ := h.gone _ hnone
        refine ⟨rfl, ?_, by simp [hstands]⟩
        rw [hstands]
        exact hnew.distrusted

lemma learn_agrees {known : Known} {heard : Bool} {reading said : Reading} {stands : Option Reading}
    (hwords : ∀ said, stands = some said → ∀ a w, said.word a = some w →
      known.reading.word a = some w)
    (hstands : (if heard && contradicts reading known.advertSaid then
      some ((stands.getD Reading.empty).merge (guarded reading)) else none) = some said) :
    ∀ a w, said.word a = some w → (known.toldByCloud heard reading).reading.word a = some w := by
  intro a w hsaid
  split at hstands
  · obtain rfl := Option.some.inj hstands
    simp only [word_merge, word_guarded] at hsaid
    simp only [Known.toldByCloud, word_merge]
    rcases Option.or_eq_some_iff.mp hsaid with hnamed | ⟨hunnamed, hbefore⟩
    · simp [hnamed]
    · cases hstill : stands with
      | none => simp [hstill] at hbefore
      | some before =>
        simp only [hstill, Option.getD_some] at hbefore
        simp [hunnamed, hwords before hstill a w hbefore]
  · cases hstands

lemma agrees_answer {moment : Moment} {id : String} {known : Known} {status : Status}
    {causedBy : Option ContextId} {up : Option Bool} (h : r.Agrees)
    (hknown : r.world.devices[id]? = some known) :
    ((r.answer env moment id (Reading.fromStatus env.decimals known.family status)).within
      ((r.world.learn env moment id status causedBy known).tellHub id up)).Agrees := by
  obtain ⟨hadverts, -, hwords⟩ := h.known id known hknown
  refine agrees_alters h (learn_alters h.proper hknown up) ?_ ?_ ?_
  · exact fun hcloud => ⟨h.named hcloud id known hknown, fun _ h => h⟩
  · exact fun other hother => ⟨rfl, Function.update_of_ne hother _ _⟩
  · simp only [Record.answer, Function.update_self]
    refine ⟨hadverts, ?_, fun said hstands => learn_agrees hwords (hadverts ▸ hstands)⟩
    rw [← hadverts]
    simp only [Known.toldByCloud]
    split
    · rename_i hcontra
      simp [hcontra]
    · rename_i hcontra
      simpa using hcontra

lemma refused_settles {moment : Moment} {id : String} {result : Except CloudError Status}
    {causedBy : Option ContextId} (hnot : ∀ status, result ≠ .ok status) (w : World) :
    Settles (fun _ => False) w (w.status env moment id result causedBy) := by
  have hhub : ∀ (w : World) (up : Option Bool), Settles (fun _ => False) w (w.tellHub id up) :=
    fun w up => tellHub_settles w id up
  have hset : Settles (fun _ => False) w (w.setAvailable id false) :=
    setAvailable_settles w id false
  unfold World.status
  split
  · rename_i said
    exact absurd rfl (hnot said)
  · exact hset.trans (hhub _ _)
  · exact hset.trans (hhub _ _)
  · exact hhub _ _

lemma agrees_settles (h : r.Agrees) (hsettles : Settles (fun _ => False) r.world w') :
    (r.within w').Agrees :=
  agrees_rests h hsettles.rests fun _ id known' hknown' hnone =>
    (hsettles.comes id known' hknown' hnone).1.elim

lemma hears_tells {moment : Moment} {advert : Advert} {w : World} (hw : w.Proper)
    (h : Hears env moment advert w w') : Tells w w' := by
  cases h with
  | unheard _ hrests _ _ => exact hrests.tells hw
  | stranger _ _ _ hrests _ => exact hrests.tells hw
  | taken _ _ _ _ halters => exact halters.tells

lemma Record.Agrees.of_eq (h : r.Agrees) (hcloud : w'.cloud = r.world.cloud)
    (hdevices : w'.devices = r.world.devices) : ({ r with world := w' } : Record).Agrees := by
  refine ⟨fun id known hknown => ?_, fun id known hknown => ?_, fun id hnone => ?_,
    fun hc id known hknown => ?_⟩
  · exact h.proper id known (hdevices ▸ hknown)
  · exact h.known id known (hdevices ▸ hknown)
  · exact h.gone id (hdevices ▸ hnone)
  · exact h.named (hcloud ▸ hc) id known (hdevices ▸ hknown)

lemma agrees_status {moment : Moment} {id : String} {result : Except CloudError Status}
    {causedBy : Option ContextId} (h : r.Agrees)
    (hasked : r.world.asked.contains (id, causedBy) = true) :
    (r.step env moment (.answered id causedBy result)).Agrees ∧
      Tells r.world (r.step env moment (.answered id causedBy result)).world := by
  obtain ⟨w, hw⟩ : ∃ w, w = { r.world with asked := r.world.asked.erase (id, causedBy) } :=
    ⟨_, rfl⟩
  have hr : ({ r with world := w } : Record).Agrees := h.of_eq (by rw [hw]) (by rw [hw])
  have htold : w.told = r.world.told := by rw [hw]
  have hdevices : w.devices = r.world.devices := by rw [hw]
  have hears : w.ears = r.world.ears := by rw [hw]
  have hworld : r.world.step env moment (.answered id causedBy result) =
      w.status env moment id result causedBy := by
    unfold World.step
    rw [hw]
    exact if_pos hasked
  have htells : ∀ w', Tells w w' → Tells r.world w' := fun w' ⟨said, hsaid, htrue⟩ =>
    ⟨said, htold ▸ hsaid, htrue⟩
  unfold Record.step
  rw [hworld]
  cases result with
  | error why =>
    have hsettles : Settles (fun _ => False) w (w.status env moment id (.error why) causedBy) :=
      refused_settles (fun _ hok => by cases hok) w
    show (({ r with world := w } : Record).within _).Agrees ∧ _
    exact ⟨agrees_settles hr hsettles, htells _ (hsettles.tells hr.proper)⟩
  | ok status =>
    simp only [Record.note, if_pos hasked]
    unfold World.status
    rw [hdevices]
    cases hknown : r.world.devices[id]? with
    | none =>
      have hsettles : Settles (fun _ => False) w w := Settles.refl _ w
      show (({ r with world := w } : Record).within w).Agrees ∧ _
      exact ⟨agrees_settles hr hsettles, htells _ (hsettles.tells hr.proper)⟩
    | some known =>
      have hknown' : w.devices[id]? = some known := hdevices ▸ hknown
      have hlately : w.heardLately env moment id = r.world.heardLately env moment id := by
        unfold World.heardLately
        rw [hears]
      have hagrees : ((({ r with world := w } : Record).answer env moment id
          (Reading.fromStatus env.decimals known.family status)).within
          ((w.learn env moment id status causedBy known).tellHub id
            (hubUp (.ok status)))).Agrees := agrees_answer hr hknown'
      refine ⟨?_, htells _ (learn_alters hr.proper hknown' _).tells⟩
      unfold Record.answer Record.within at hagrees ⊢
      simp only [hlately] at hagrees
      exact hagrees

lemma agrees_listed {moment : Moment} {list : List Listed} (h : r.Agrees) :
    (r.step env moment (.listed list)).Agrees ∧
      Tells r.world (r.step env moment (.listed list)).world := by
  unfold Record.step World.step
  simp only [Record.note]
  split
  · obtain ⟨w', hdrops, hsettles⟩ : ∃ w', Drops (fun id => ¬id ∈ list.map (·.id)) r.world w' ∧
        Settles (· ∈ list.map (·.id)) w' (r.world.adopt env moment list) :=
      adopt_parts moment list h.proper
    have hr : ({ r with
        named := r.named ++ list.map (·.id), listed := list.map (·.id) } : Record).Agrees :=
      ⟨h.proper, h.known, h.gone, fun hcloud id known hknown =>
        List.mem_append_left _ (h.named hcloud id known hknown)⟩
    have hrests := hdrops.settles hsettles
    exact ⟨agrees_rests hr hrests fun _ id known' hknown' hnone =>
      List.mem_append_right _ (hdrops.comes hsettles hknown' hnone), hrests.tells h.proper⟩
  · exact ⟨agrees_settles h (Settles.refl _ _), (Settles.refl (fun _ => False) _).tells h.proper⟩

lemma agrees_step (h : r.Agrees) (moment : Moment) (e : Event) :
    (r.step env moment e).Agrees ∧ Tells r.world (r.step env moment e).world := by
  have hsame : ∀ w' : World, w'.cloud = r.world.cloud → w'.devices = r.world.devices →
      w'.told = r.world.told → (r.within w').Agrees ∧ Tells r.world w' := by
    intro w' hcloud hdevices htold
    have hsettles : Settles (fun _ => False) r.world w' := Settles.of_eq hcloud hdevices htold
    exact ⟨agrees_settles h hsettles, hsettles.tells h.proper⟩
  cases e with
  | heard advert =>
    exact ⟨agrees_hear h, hears_tells h.proper (hear_hears moment advert h.proper)⟩
  | listening => exact hsame _ rfl rfl rfl
  | deaf why => exact hsame _ rfl rfl rfl
  | listed list => exact agrees_listed h
  | asks id causedBy =>
    show (r.within (r.world.ask id causedBy)).Agrees ∧ Tells r.world (r.world.ask id causedBy)
    unfold World.ask
    split
    · exact hsame _ rfl rfl rfl
    · exact hsame _ rfl rfl rfl
  | answered id causedBy result =>
    by_cases hasked : r.world.asked.contains (id, causedBy) = true
    · exact agrees_status h hasked
    · have hstep : r.step env moment (.answered id causedBy result) = r.within r.world := by
        unfold Record.step World.step
        cases result <;> simp only [Record.note, if_neg hasked]
      rw [hstep]
      exact hsame _ rfl rfl rfl
  | redraws =>
    have hdrops : Drops (fun _ => True) r.world (r.world.redraw env moment) := redraw_drops moment
    refine ⟨agrees_rests h hdrops.rests fun _ id known' hknown' hnone => ?_,
      hdrops.rests.tells h.proper⟩
    obtain ⟨known, hknown, -⟩ := hdrops.was id known' hknown'
    exact absurd ((show r.world.devices[id]? = none from hnone).symm.trans hknown) (by simp)

structure Left (ids : List String) (id : String) (known : Known) : Prop where
  proper : Proper id known
  advertSaid : known.advertSaid = Reading.empty
  distrusted : known.distrusted = false
  named : id ∈ ids

lemma introduce_left {w : World} {ids : List String} {known : Known}
    (hw : ∀ id k, w.devices[id]? = some k → Left ids id k)
    (hknown : Left ids known.listed.id known) :
    ∀ id k, (w.introduce env known).devices[id]? = some k → Left ids id k := by
  intro id k hk
  obtain ⟨known', hsame, hdevices, hproper⟩ := introduce_devices known
  rw [hdevices, Map.get_insert] at hk
  split at hk
  · rename_i hid
    subst hid
    obtain rfl := Option.some.inj hk
    exact ⟨hproper _ hknown.proper, hsame.advertSaid.trans hknown.advertSaid,
      hsame.distrusted.trans hknown.distrusted, hknown.named⟩
  · exact hw id k hk

lemma revive_left {w : World} {saved : List Saved} {ids : List String} {listed : Listed}
    (hw : ∀ id k, w.devices[id]? = some k → Left ids id k) (hid : listed.id ∈ ids) :
    ∀ id k, (revive env saved w listed).devices[id]? = some k → Left ids id k := by
  have hnew : ∀ (family : Family) (reading : Reading) (fromCloud : Bool) (heardAt : Option Nat),
      Left ids listed.id { Known.new listed family reading with
        fromCloud := fromCloud, heardAt := heardAt } := fun family reading fromCloud heardAt =>
    ⟨⟨rfl, fun key hkey => by simp [Known.new] at hkey⟩, rfl, rfl, hid⟩
  unfold revive
  split
  · exact hw
  · split
    · exact introduce_left hw (hnew _ _ _ _)
    · exact introduce_left hw (hnew _ _ _ _)

lemma foldl_revive_left {w : World} {saved : List Saved} {ids : List String} (list : List Listed)
    (hw : ∀ id k, w.devices[id]? = some k → Left ids id k) (hids : ∀ l ∈ list, l.id ∈ ids) :
    ∀ id k, (list.foldl (revive env saved) w).devices[id]? = some k → Left ids id k := by
  induction list generalizing w with
  | nil => exact hw
  | cons listed rest ih =>
    exact ih (revive_left hw (hids listed (by simp))) fun l hl => hids l (by simp [hl])

lemma agrees_start (cloud listens : Bool) (moment : Moment) (saved : List Saved) :
    (Record.start env cloud listens moment saved).Agrees := by
  have hleft : ∀ id k, ((fresh cloud listens).restore env moment saved).devices[id]? = some k →
      Left (saved.map (·.listed.id)) id k := by
    unfold restore
    dsimp only
    refine foldl_revive_left _ (fun id k hk => ?_) fun l hl => ?_
    · simp [fresh] at hk
    · have hin : l ∈ (saved.filter fun s => s.fromCloud || !forgotten s.heardAt moment.now).map
          (·.listed) := by
        simp only [hubsFirst, List.mem_append, List.mem_filter] at hl
        exact hl.elim (·.1) (·.1)
      obtain ⟨s, hs, rfl⟩ := List.mem_map.mp hin
      exact List.mem_map.mpr ⟨s, (List.mem_filter.mp hs).1, rfl⟩
  exact ⟨fun id k hk => (hleft id k hk).proper, fun id k hk =>
    ⟨(hleft id k hk).advertSaid, (hleft id k hk).distrusted, fun said hsaid => by cases hsaid⟩,
    fun _ _ => ⟨rfl, rfl⟩, fun _ id k hk => (hleft id k hk).named⟩

lemma agrees_after (h : r.Agrees) (events : List (Moment × Event)) :
    (r.after env events).Agrees := by
  induction events generalizing r with
  | nil => exact h
  | cons e rest ih => exact ih (agrees_step h e.1 e.2).1

lemma word_hear {moment : Moment} {advert : Advert} {id : String} (h : r.Agrees)
    (hstands : (r.stands id).isSome = true) (a : Aspect) :
    ((r.world.hear env moment advert).devices[id]?).bind (·.reading.word a) = r.word id a := by
  have hhears : Hears env moment advert r.world (r.world.hear env moment advert) :=
    hear_hears moment advert h.proper
  obtain ⟨known, hknown⟩ : ∃ known, r.world.devices[id]? = some known := by
    cases hknown : r.world.devices[id]? with
    | some known => exact ⟨known, rfl⟩
    | none => simp [(h.gone id hknown).2] at hstands
  have htrust : known.distrusted = true := (h.known id known hknown).2.1.trans hstands
  unfold Record.word
  cases hhears with
  | unheard _ _ hdevices _ => rw [hdevices]
  | stranger _ _ _ _ hdevices => rw [hdevices]
  | taken heard _ before hbefore halters =>
    by_cases hid : id = heard.mac
    · subst hid
      obtain ⟨known', hknown', hsame⟩ := halters.here
      obtain rfl : before = known := by
        rcases hbefore with hsome | ⟨hnone, -, -⟩
        · exact Option.some.inj (hsome.symm.trans hknown)
        · simp [hknown] at hnone
      rw [hknown', hknown]
      simp [hsame.reading, Known.heed, htrust]
    · obtain ⟨known', hknown'⟩ := halters.stays id known hid hknown
      obtain ⟨old, hold, hsame⟩ := halters.elsewhere id known' hid hknown'
      rw [hknown', hold]
      simp [hsame.reading]

lemma hear_impostor {moment : Moment} {advert : Advert} {heardFrom : Vector UInt8 6}
    {data : List UInt8} (w : World) (haddress : advert.address = some heardFrom)
    (hreal : heardFrom.toList.any (· ≠ 0) = true)
    (hdata : advert.manufacturer[company]? = some data) (hlength : 6 ≤ data.length)
    (hother : data.take 6 ≠ heardFrom.toList) :
    ∃ impostors, w.hear env moment advert = { w with impostors := impostors } := by
  have hclaimed : advert.claimed = some (data.take 6) := by
    simp [Advert.claimed, hdata, hlength]
  have hradio : advert.radioAddress = some heardFrom.toList := by
    simp only [Advert.radioAddress, haddress, Option.map_some]
    exact Option.filter_some_pos hreal
  have hclaims : advert.claimsAnotherAddress = true := by
    simp [Advert.claimsAnotherAddress, hclaimed, hradio, hother]
  have hmac : advert.mac = some (String.ofList ((data.take 6).flatMap hex)) := by
    simp [Advert.mac, hclaimed]
  exact ⟨_, by unfold World.hear; rw [hmac]; exact if_pos hclaims⟩

lemma hear_stranger {moment : Moment} {advert : Advert} {mac : String} {w : World}
    (hcloud : w.cloud = true) (hmac : advert.mac = some mac) (hnone : w.devices[mac]? = none) :
    ∃ radio strangers impostors, w.hear env moment advert =
      { w with radio := radio, strangers := strangers, impostors := impostors } := by
  have hcontains : w.devices.contains mac = false := by
    rw [Std.ExtTreeMap.contains_eq_isSome_getElem?, hnone]
    rfl
  unfold World.hear
  rw [hmac]
  dsimp only
  split
  · exact ⟨w.radio, w.strangers, _, rfl⟩
  · split
    · exact ⟨w.radio, w.strangers, w.impostors, rfl⟩
    · rw [if_neg (by simp [hcontains])]
      exact ⟨_, _, w.impostors, rfl⟩

lemma heedsCloud_step (h : r.Agrees) (moment : Moment) (e : Event) :
    HeedsCloud r e (r.step env moment e) := by
  obtain ⟨hagrees, htells⟩ := agrees_step h moment e
  refine ⟨word_of_agrees hagrees htells, ?_, ?_, ?_⟩
  · rintro advert id rfl hstands a
    exact word_hear h hstands a
  · rintro advert heardFrom data rfl haddress hreal hdata hlength hother
    exact hear_impostor r.world haddress hreal hdata hlength hother
  · rintro advert mac rfl hcloud hmac hnamed
    refine hear_stranger hcloud hmac ?_
    cases hknown : r.world.devices[mac]? with
    | none => rfl
    | some known => exact absurd (h.named hcloud mac known hknown) hnamed

end

/-- Whatever is heard, listed, asked and answered, in any order: while the cloud's word stands
against a device's adverts they change none of the four, and what is said of one the cloud has named
since is the last it said; an advert from another address, or with an account of a device that was
never listed, is noted and no more. -/
theorem heedsCloud (env : Env) (cloud listens : Bool) (started : Moment) (saved : List Saved)
    (events : List (Moment × Event)) (moment : Moment) (e : Event) :
    HeedsCloud ((Record.start env cloud listens started saved).after env events) e
      (((Record.start env cloud listens started saved).after env events).step env moment e) :=
  heedsCloud_step (agrees_after (agrees_start cloud listens started saved) events) moment e

namespace Sample

def env : Env := ⟨⟨fun _ => none, fun _ => ""⟩, 600000, fun _ => true⟩

def mac : List UInt8 := [0xD0, 0x01, 0x02, 0x03, 0x04, 0x05]

def door : Listed := ⟨"D00102030405", "Front door", "Smart Lock Pro", none⟩

def advert (bolt door : UInt8) : Advert :=
  ⟨none, (∅ : Map Nat (List UInt8)).insert company (mac ++ [0x1d, bolt, door, 0x64, 0, 0]),
    (∅ : Map String (List UInt8)).insert service [0x24, 0x80, 0x64], some (-60)⟩

def forged : Advert := advert 0x82 0x08

def opened : Advert := advert 0x8a 0x18

def unlocked : Status := [("lockState", .string "unlocked"), ("doorState", .string "opened")]
def unlockedOnly : Status := [("lockState", .string "unlocked")]

def clock (seconds : Nat) : Moment := ⟨seconds * 1000, seconds⟩

def asked : List (Moment × Event) :=
  [(clock 0, .listed [door]), (clock 1, .heard forged), (clock 2, .asks "D00102030405" none)]

def comes (events : List (Moment × Event)) : Record :=
  (Record.start env true true (clock 0) []).after env events

def quiet : List (Moment × Event) :=
  asked ++ [(clock 3, .answered "D00102030405" none (.ok unlocked)), (clock 700, .redraws)]

def quietThenAsked : List (Moment × Event) :=
  quiet ++ [(clock 701, .asks "D00102030405" none),
    (clock 702, .answered "D00102030405" none (.ok unlocked))]

def quietThenListed : List (Moment × Event) :=
  quiet ++ [(clock 701, .listed []), (clock 702, .listed [door])]

def deleted : List (Moment × Event) := [(clock 0, .listed [door]), (clock 1, .heard forged),
  (clock 2, .listed [])]

example : ((comes (quiet.take 4)).stands "D00102030405").isSome = true := by decide

end Sample

open Sample in
/-- A forged advert is believed again once the device was quiet when the cloud answered, or was off
the list for a while; and what an answer doesn't name stays what the advert made it. A device that
was deleted in the app while it was heard is still read. -/
theorem not_goesByCloud :
    ¬GoesByCloud (comes quietThenAsked) ((comes quietThenAsked).step env (clock 703) (.heard forged)) ∧
      ¬GoesByCloud (comes quietThenListed)
        ((comes quietThenListed).step env (clock 703) (.heard forged)) ∧
      ¬GoesByCloud (comes asked)
        ((comes asked).step env (clock 3) (.answered "D00102030405" none (.ok unlockedOnly))) ∧
      ¬LeavesBe (comes deleted) (.heard opened)
        ((comes deleted).step env (clock 3) (.heard opened)) := by
  refine ⟨by decide, by decide, by decide, fun h => ?_⟩
  have hmac : opened.mac = some "D00102030405" := by decide
  have hlisted : "D00102030405" ∉ (comes deleted).listed := by decide
  have hsame := h opened "D00102030405" rfl (by decide) hmac hlisted
  have hlength : ((comes deleted).step env (clock 3) (.heard opened)).world.told.length ≠
      (comes deleted).world.told.length := by decide
  exact hlength (congrArg List.length hsame)

end SwitchBot

end Irori

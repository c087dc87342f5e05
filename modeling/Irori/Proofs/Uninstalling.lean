import Irori.Proofs.Refusing
import Irori.Proofs.Slugs

/-!
# Uninstalling takes a protocol's devices

A device's row doesn't say whose it is: that is guessed from its id. An id made of a protocol and a
handle begins with the protocol, unless the two are too long and it is cut before the protocol ends;
and it can begin with another protocol too, when one protocol's name begins with another's.
-/

namespace Irori.Proofs
open Irori Core Config

variable {p q : ProtocolId} {u : UniqueId} {d : DeviceId}

/-- An id that begins with a protocol short enough to be looked for. -/
def Begins (p : ProtocolId) (d : DeviceId) : Prop :=
  p.text.toList.length ≤ 62 ∧ p.text.toList ++ ['_'] <+: d.text.toList

/-- A protocol and a handle that are cut after the protocol, or not at all. -/
def KeepsName (p : ProtocolId) (u : UniqueId) : Prop :=
  p.text.toList.length ≤ 47 ∨ (p.text.toList.length < (slugWords (canonical p u)).length ∧
    (slugWords (canonical p u)).length ≤ 64)

lemma isAlphanum_of_isSlugChar {c : Char} (h : isSlugChar c = true) (hne : c ≠ '_') :
    c.isAlphanum = true ∧ c.toLower = c := by
  have hword : (97 ≤ c.toNat ∧ c.toNat ≤ 122) ∨ (48 ≤ c.toNat ∧ c.toNat ≤ 57) := by
    simp only [isSlugChar, Bool.or_eq_true, Bool.and_eq_true, decide_eq_true_eq, beq_iff_eq] at h
    rcases h with (h | h) | h
    · exact .inl ⟨Char.le_def.mp h.1, Char.le_def.mp h.2⟩
    · exact .inr ⟨Char.le_def.mp h.1, Char.le_def.mp h.2⟩
    · exact absurd h hne
  rw [← Char.ofNat_toNat c]
  generalize c.toNat = n at hword
  rcases hword with ⟨hlo, hhi⟩ | ⟨hlo, hhi⟩ <;> interval_cases n <;> decide

lemma foldl_slug {l : List Char} (hstart : l.head? ≠ some '_')
    (hsingle : ∀ before after : List Char, l ≠ before ++ '_' :: '_' :: after)
    (hall : ∀ c ∈ l, isSlugChar c = true) :
    (l.getLast? ≠ some '_' → l.foldl slugStep ([], false) = (l, false)) ∧
      ∀ l', l = l' ++ ['_'] → l.foldl slugStep ([], false) = (l', true) := by
  induction l using List.reverseRecOn with
  | nil => exact ⟨fun _ => rfl, fun l' h => by simp at h⟩
  | append_singleton l c ih =>
    have hstart' : l.head? ≠ some '_' := by
      intro hhead
      rw [List.head?_append, hhead] at hstart
      exact hstart rfl
    obtain ⟨hword, hwaits⟩ := ih hstart' (fun before after heq => hsingle before (after ++ [c]) (by
      rw [heq]; simp)) fun d hd => hall d (List.mem_append_left _ hd)
    rw [List.foldl_append]
    constructor
    · intro hlast
      have hc : c ≠ '_' := by simpa using hlast
      obtain ⟨halnum, hlower⟩ := isAlphanum_of_isSlugChar (hall c (by simp)) hc
      by_cases hsep : l.getLast? = some '_'
      · obtain ⟨l', rfl⟩ := List.getLast?_eq_some_iff.mp hsep
        have hne : l' ≠ [] := fun hnil => hstart (by rw [hnil]; rfl)
        rw [hwaits l' rfl]
        simp [slugStep, halnum, hlower, hne]
      · rw [hword hsep]
        simp [slugStep, halnum, hlower]
    · intro l' heq
      obtain ⟨rfl, hc⟩ := List.append_inj' heq rfl
      obtain rfl : c = '_' := by simpa using hc
      have hsep : l.getLast? ≠ some '_' := by
        intro hlast
        obtain ⟨l', rfl⟩ := List.getLast?_eq_some_iff.mp hlast
        exact hsingle l' [] (by simp)
      rw [hword hsep]
      rfl

lemma foldl_after {w : List Char} (hw : w ≠ []) (chars : List Char) :
    (chars.foldl slugStep (w, true)).1 = w ∨
      ∃ c rest, (chars.foldl slugStep (w, true)).1 = w ++ '_' :: c :: rest := by
  have hextends : ∀ (chars l : List Char) (waits : Bool),
      ∃ rest, (chars.foldl slugStep (l, waits)).1 = l ++ rest := by
    intro chars
    induction chars with
    | nil => exact fun l _ => ⟨[], by simp⟩
    | cons c chars ih =>
      intro l waits
      rw [List.foldl_cons]
      by_cases hc : c.isAlphanum = true
      · rw [show slugStep (l, waits) c = _ from if_pos hc]
        obtain ⟨rest, hrest⟩ := ih ((if waits && !l.isEmpty then l ++ ['_'] else l) ++ [c.toLower]) false
        rw [hrest]
        split
        · exact ⟨'_' :: c.toLower :: rest, by simp⟩
        · exact ⟨c.toLower :: rest, by simp⟩
      · rw [show slugStep (l, waits) c = _ from if_neg hc]
        exact ih l true
  induction chars with
  | nil => exact .inl rfl
  | cons c chars ih =>
    rw [List.foldl_cons]
    by_cases hc : c.isAlphanum = true
    · rw [show slugStep (w, true) c = (w ++ ['_'] ++ [c.toLower], false) by simp [slugStep, hc, hw]]
      obtain ⟨rest, hrest⟩ := hextends chars (w ++ ['_'] ++ [c.toLower]) false
      exact .inr ⟨c.toLower, rest, by rw [hrest]; simp⟩
    · rw [show slugStep (w, true) c = (w, true) from if_neg hc]
      exact ih

lemma slugWords_canonical (p : ProtocolId) (u : UniqueId) :
    slugWords (canonical p u) = p.text.toList ∨
      ∃ c rest, slugWords (canonical p u) = p.text.toList ++ '_' :: c :: rest := by
  obtain ⟨⟨hslug, hall⟩, -⟩ := slugBase_slug p
  have hne := (slugBase_of_checkSlug p.wellFormed).2
  have hfold := (foldl_slug hslug.starts hslug.single hall).1 hslug.ends
  have hafter := foldl_after hne u.text.toList
  unfold slugWords canonical
  have hlist : (p.text ++ " " ++ u.text).toList = p.text.toList ++ ' ' :: u.text.toList := by simp
  rw [hlist, List.foldl_append, hfold, List.foldl_cons]
  exact hafter

lemma prefix_slugCut {l slug : List Char} {keep : Nat} (h : l <+: slug)
    (hlast : l.getLast? ≠ some '_') (hkeep : l.length ≤ keep) : l <+: slugCut keep slug := by
  have htake : l <+: slug.take keep := List.prefix_take_iff.mpr ⟨h, hkeep⟩
  obtain ⟨rest, hrest⟩ := htake
  unfold slugCut
  rw [← hrest]
  clear hrest
  induction rest using List.reverseRecOn with
  | nil =>
    rw [List.append_nil, List.rdropWhile_eq_self_iff.mpr]
    intro hl hlast'
    rw [List.getLast?_eq_some_getLast hl] at hlast
    exact hlast (by simpa using hlast')
  | append_singleton rest c ih =>
    rw [← List.append_assoc]
    by_cases hc : (c == '_') = true
    · rw [List.rdropWhile_concat_pos (· == '_') _ _ hc]
      exact ih
    · rw [List.rdropWhile_concat_neg (· == '_') _ _ hc, List.append_assoc]
      exact List.prefix_append _ _

lemma utf8ByteSize_slug {what : String} (s : Slug what) :
    s.text.utf8ByteSize = s.text.toList.length := by
  have hlen := utf8ByteSize_ofList s.text.toList fun c hc =>
    isSlugChar_ascii ((slugBase_slug s).1.2 c hc)
  rwa [String.ofList_toList] at hlen

lemma not_prefix_hash {l r hash : List Char} (hhash : '_' ∉ hash) (hlong : r.length < l.length) :
    ¬ l ++ ['_'] <+: r ++ '_' :: hash := by
  rintro ⟨rest, hrest⟩
  have hat := congrArg (·[l.length]?) hrest
  simp only [List.append_assoc, List.getElem?_append_right (Nat.le_refl l.length), Nat.sub_self,
    List.singleton_append, List.getElem?_cons_zero,
    List.getElem?_append_right (Nat.le_of_lt hlong)] at hat
  obtain ⟨k, hk⟩ := Nat.exists_eq_succ_of_ne_zero (show l.length - r.length ≠ 0 by omega)
  rw [hk, List.getElem?_cons_succ] at hat
  exact hhash (List.mem_of_getElem? hat.symm)

lemma begins_deviceIdFor (p : ProtocolId) (u : UniqueId) :
    Begins p (deviceIdFor p u) ↔ KeepsName p u := by
  obtain ⟨⟨hslug, -⟩, hmax⟩ := slugBase_slug p
  have hprefix : p.text.toList <+: slugWords (canonical p u) := by
    rcases slugWords_canonical p u with heq | ⟨c, rest, heq⟩ <;> rw [heq]
    exact List.prefix_append _ _
  have htext : (deviceIdFor p u).text.toList = deviceSlug p u := String.toList_ofList
  unfold Begins KeepsName
  rw [htext]
  unfold deviceSlug
  dsimp only
  rw [utf8ByteSize_slug, slugMaxLen, length_hex16]
  split
  · next hcut =>
    generalize hhash : hex16 _ = hash
    have hmem : '_' ∉ hash := by
      rw [← hhash]
      exact fun h => (mem_hex16 h).2 rfl
    have hshort : (slugCut (64 - 16 - 1) (slugWords (canonical p u))).length ≤ 47 :=
      Words.length_trimmed_le _ _ _
    constructor
    · rintro ⟨-, hbegins⟩
      by_contra hlong
      exact not_prefix_hash hmem (by omega) hbegins
    · intro hfits
      have hle : p.text.toList.length ≤ 47 := by omega
      refine ⟨by omega, ?_⟩
      have hkept := prefix_slugCut hprefix hslug.ends (show _ ≤ 64 - 16 - 1 by omega)
      obtain ⟨rest, hrest⟩ := hkept
      rw [← hrest]
      cases rest with
      | nil => exact ⟨hash, by simp⟩
      | cons x rest =>
        -- What follows the protocol is what followed it before the cut.
        have hx : x = '_' := by
          have hcutprefix : slugCut (64 - 16 - 1) (slugWords (canonical p u)) <+:
              slugWords (canonical p u) :=
            (List.rdropWhile_prefix _ _).trans (List.take_prefix _ _)
          rw [← hrest] at hcutprefix
          obtain ⟨after, hafter⟩ := hcutprefix
          rcases slugWords_canonical p u with heq | ⟨c, more, heq⟩
          · rw [heq] at hafter
            simp at hafter
          · rw [heq, List.append_assoc, List.append_cancel_left_eq] at hafter
            exact (List.cons.inj hafter).1
        exact ⟨rest ++ '_' :: hash, by simp [hx]⟩
  · next hwhole =>
    have hlong : p.text.toList.length < (slugWords (canonical p u)).length := by omega
    refine iff_of_true ?_ (.inr ⟨hlong, by omega⟩)
    rcases slugWords_canonical p u with heq | ⟨c, rest, heq⟩
    · rw [heq] at hlong
      exact absurd hlong (Nat.lt_irrefl _)
    · rw [heq] at hwhole ⊢
      simp only [List.length_append, List.length_cons] at hwhole
      exact ⟨by omega, ⟨c :: rest, by simp⟩⟩

lemma not_mem_hex16 (n : UInt64) : 'x' ∉ hex16 n := by
  intro h
  obtain ⟨i, -, hi⟩ := List.mem_map.mp h
  have hlen : hexDigits.length = 16 := by decide
  have hlt : n.toNat / 16 ^ i % 16 < hexDigits.length := by omega
  rw [List.getD_eq_getElem?_getD, List.getElem?_eq_getElem hlt, Option.getD_some] at hi
  have hx : 'x' ∈ hexDigits := hi ▸ List.getElem_mem hlt
  exact absurd hx (by decide)

lemma idPrefix_eq (p : ProtocolId) :
    idPrefix p = if p.text.toList.length ≤ 62 then p.text.toList ++ ['_'] else [] := by
  have hwords : slugWords (canonical p ⟨"x", by decide⟩) = p.text.toList ++ ['_', 'x'] := by
    obtain ⟨⟨hslug, hall⟩, -⟩ := slugBase_slug p
    have hne := (slugBase_of_checkSlug p.wellFormed).2
    have hfold := (foldl_slug hslug.starts hslug.single hall).1 hslug.ends
    unfold slugWords canonical
    have hlist : (p.text ++ " " ++ "x").toList = p.text.toList ++ [' ', 'x'] := by simp
    rw [hlist, List.foldl_append, hfold]
    have hempty : p.text.toList.isEmpty = false := by simpa using hne
    have hlower : 'x'.toLower = 'x' := by decide
    simp [slugStep, hempty, hlower]
  have htext : (deviceIdFor p ⟨"x", by decide⟩).text.toList = deviceSlug p ⟨"x", by decide⟩ :=
    String.toList_ofList
  unfold idPrefix
  dsimp only
  rw [htext]
  by_cases hshort : p.text.toList.length ≤ 62
  · have hmade : deviceSlug p ⟨"x", by decide⟩ = p.text.toList ++ ['_', 'x'] := by
      unfold deviceSlug
      dsimp only
      rw [hwords, utf8ByteSize_slug, slugMaxLen, if_neg]
      simp only [List.length_append, List.length_cons, List.length_nil]
      omega
    rw [hmade, if_pos (by simp), if_pos hshort]
    simp
  · have hmade : ∃ r n, deviceSlug p ⟨"x", by decide⟩ = r ++ '_' :: hex16 n := by
      unfold deviceSlug
      dsimp only
      rw [hwords, utf8ByteSize_slug, slugMaxLen, if_pos]
      · exact ⟨_, _, rfl⟩
      · simp only [List.length_append, List.length_cons, List.length_nil]
        omega
    obtain ⟨r, n, hmade⟩ := hmade
    rw [hmade, if_neg, if_neg hshort]
    intro hlast
    have hne : hex16 n ≠ [] := List.ne_nil_of_length_pos (by rw [length_hex16]; omega)
    rw [List.getLast?_append_of_ne_nil _ (List.cons_ne_nil _ _),
      List.getLast?_cons_of_ne_nil hne] at hlast
    exact not_mem_hex16 n (List.mem_of_getLast? hlast)

lemma broughtInBy_iff {others : List ProtocolId} : broughtInBy d p others = true ↔
    Begins p d ∧ ∀ q ∈ others, Begins q d → q.text.toList.length ≤ p.text.toList.length := by
  have hbegins : ∀ q : ProtocolId, Begins q d ↔
      (idPrefix q).isEmpty = false ∧ (idPrefix q).isPrefixOf d.text.toList = true := by
    intro q
    unfold Begins
    rw [idPrefix_eq]
    split
    · next h => simp [h]
    · next h => simp [h]
  have hlength : ∀ q : ProtocolId, Begins q d → (idPrefix q).length = q.text.toList.length + 1 := by
    intro q hq
    rw [idPrefix_eq, if_pos hq.1, List.length_append]
    rfl
  unfold broughtInBy
  dsimp only
  rw [Bool.and_eq_true, Bool.and_eq_true, Bool.not_eq_true', Bool.not_eq_true', ← hbegins p]
  refine and_congr_right fun hp => ?_
  rw [List.any_eq_false]
  constructor
  · intro h q hq hqd
    have hnot := h _ (List.mem_map_of_mem hq)
    rw [((hbegins q).mp hqd).2, Bool.and_true, decide_eq_true_eq, hlength p hp, hlength q hqd] at hnot
    omega
  · intro h x hx hlonger
    obtain ⟨q, hq, rfl⟩ := List.mem_map.mp hx
    rw [Bool.and_eq_true, decide_eq_true_eq] at hlonger
    have hqd : Begins q d := (hbegins q).mpr ⟨by
      cases hnil : idPrefix q with
      | nil => rw [hnil] at hlonger; simp at hlonger
      | cons _ _ => rfl, hlonger.2⟩
    have hle := h q hq hqd
    rw [hlength p hp, hlength q hqd] at hlonger
    omega

def protocolsOf (installed : List ExtensionId) : List ProtocolId :=
  installed.filterMap fun id => (Slug.parse "protocol id" id.text).toOption

/-- Every row of a device the protocol described goes, and every row of one another described
stays. -/
structure TakesOwn (described : ProtocolId → UniqueId → Prop) (installed : List ProtocolId)
    (p : ProtocolId) (before after : Map DeviceId DeviceSettings) : Prop where
  removes : ∀ u, described p u → after[deviceIdFor p u]? = none
  keeps : ∀ q ∈ installed, q ≠ p → ∀ u, described q u →
    after[deviceIdFor q u]? = before[deviceIdFor q u]?

/-- The ids of the protocol's rows begin with it and with no longer protocol, and those of the
others' begin with a longer one, or not with it. -/
structure ToldApart (described : ProtocolId → UniqueId → Prop) (installed : List ProtocolId)
    (p : ProtocolId) (rows : Map DeviceId DeviceSettings) : Prop where
  own : ∀ u, described p u → (rows[deviceIdFor p u]?).isSome = true →
    KeepsName p u ∧ ∀ q ∈ installed, q ≠ p → Begins q (deviceIdFor p u) →
      q.text.toList.length ≤ p.text.toList.length
  others : ∀ q ∈ installed, q ≠ p → ∀ u, described q u → (rows[deviceIdFor q u]?).isSome = true →
    Begins p (deviceIdFor q u) → ∃ r ∈ installed, r ≠ p ∧ Begins r (deviceIdFor q u) ∧
      p.text.toList.length < r.text.toList.length

variable {τ η ι : Type} [DecidableEq τ]

lemma forgetProtocol_devices {format : Formats τ η ι} {home saved : ConfigDir τ η ι}
    {core core' : Running τ η} {fates : Fates}
    (h : home.perform format core fates (.forgetProtocol p) = (.ok, saved, core')) :
    saved.settings.devices = home.settings.devices.filter fun id _ =>
      !broughtInBy id p ((protocolsOf core.installed).filter (· ≠ p)) := by
  unfold ConfigDir.perform at h
  dsimp only at h
  split at h
  · next hsame =>
    obtain ⟨-, rfl, -⟩ := Prod.mk.inj h |>.imp_right Prod.mk.inj
    exact (congrArg Config.Settings.devices hsame).symm
  · unfold ConfigDir.tellSettings at h
    split at h
    · next hsave =>
      obtain ⟨-, rfl, -⟩ := Prod.mk.inj h |>.imp_right Prod.mk.inj
      unfold ConfigDir.saveSettings at hsave
      split at hsave
      · cases (Prod.mk.inj hsave).1
      · dsimp only at hsave
        split at hsave
        · obtain ⟨-, rfl⟩ := Prod.mk.inj hsave
          rfl
        · cases (Prod.mk.inj hsave).1
    · cases (Prod.mk.inj h).1

/-- Uninstalling takes a protocol's devices and nobody else's exactly where the ids tell them
apart. -/
theorem takesOwn_iff (described : ProtocolId → UniqueId → Prop) {format : Formats τ η ι}
    {home saved : ConfigDir τ η ι} {core core' : Running τ η} {fates : Fates}
    (h : home.run format core fates (.forgetProtocol p) = (.ok, saved, core')) :
    TakesOwn described (protocolsOf core.installed) p (home.reload format).settings.devices
        saved.settings.devices ↔
      ToldApart described (protocolsOf core.installed) p
        (home.reload format).settings.devices := by
  rw [forgetProtocol_devices h]
  generalize (home.reload format).settings.devices = rows
  generalize protocolsOf core.installed = installed
  have hafter : ∀ d : DeviceId, (rows.filter fun id _ =>
      !broughtInBy id p (installed.filter (· ≠ p)))[d]? =
        if broughtInBy d p (installed.filter (· ≠ p)) = true then none else rows[d]? := by
    intro d
    rw [Std.ExtTreeMap.getElem?_filter']
    cases rows[d]? <;> cases broughtInBy d p (installed.filter (· ≠ p)) <;> rfl
  have hothers : ∀ d : DeviceId, broughtInBy d p (installed.filter (· ≠ p)) = true ↔
      Begins p d ∧ ∀ q ∈ installed, q ≠ p → Begins q d →
        q.text.toList.length ≤ p.text.toList.length := by
    intro d
    rw [broughtInBy_iff]
    simp only [List.mem_filter, decide_eq_true_eq, and_imp]
  constructor
  · rintro ⟨hremoves, hkeeps⟩
    refine ⟨fun u hu hrow => ?_, fun q hq hne u hu hrow hbegins => ?_⟩
    · have hgone := hremoves u hu
      rw [hafter] at hgone
      split at hgone
      · next hbrought =>
        obtain ⟨hbegins, hlongest⟩ := (hothers _).mp hbrought
        exact ⟨(begins_deviceIdFor p u).mp hbegins, hlongest⟩
      · rw [hgone] at hrow
        cases hrow
    · have hstays := hkeeps q hq hne u hu
      rw [hafter] at hstays
      by_contra hnone
      have hbrought := (hothers (deviceIdFor q u)).mpr ⟨hbegins, fun r hr hrp hrd => by
        by_contra hlong
        exact hnone ⟨r, hr, hrp, hrd, Nat.lt_of_not_le hlong⟩⟩
      rw [if_pos hbrought] at hstays
      rw [← hstays] at hrow
      cases hrow
  · rintro ⟨hown, hothers'⟩
    refine ⟨fun u hu => ?_, fun q hq hne u hu => ?_⟩
    · rw [hafter]
      split
      · rfl
      · next hnot =>
        rw [Option.eq_none_iff_forall_ne_some]
        intro row hrow
        obtain ⟨hfits, hlongest⟩ := hown u hu (by rw [hrow]; rfl)
        exact hnot ((hothers _).mpr ⟨(begins_deviceIdFor p u).mpr hfits, hlongest⟩)
    · rw [hafter]
      split
      · next hbrought =>
        obtain ⟨hbegins, hlongest⟩ := (hothers _).mp hbrought
        symm
        rw [Option.eq_none_iff_forall_ne_some]
        intro row hrow
        obtain ⟨r, hr, hrp, hrd, hlt⟩ := hothers' q hq hne u hu (by rw [hrow]; rfl) hbegins
        exact absurd (hlongest r hr hrp hrd) (by omega)
      · rfl

namespace Uninstalled

lemma demo_slug : checkSlug "protocol id" "demo" = .ok () := by decide

def demo : ProtocolId := ⟨"demo", demo_slug⟩
def demoExtra : ProtocolId := ⟨"demo_extra", by decide⟩

def long : ProtocolId :=
  ⟨"extension_extension_extension_extension_extension_extension_ext", by decide⟩

def lamp : UniqueId := ⟨"lamp", by decide⟩
def extraLamp : UniqueId := ⟨"extra lamp", by decide⟩

/-- Files of which only `devices.toml` says anything: one device. -/
def formats (id : DeviceId) : Formats Unit Unit Unit :=
  { Attic.formats with
    read := fun file text =>
      match file with
      | .devices =>
        let none_ : Map DeviceId DeviceSettings := ∅
        .ok (if text = "lamp" then none_.insert id ⟨none, none, .unsaid, true⟩ else none_)
      | file => Attic.formats.read file text }

def installed : Running Unit Unit :=
  { Attic.running with
    installed := [⟨"demo", by decide⟩, ⟨"demo_extra", by decide⟩, ⟨long.text, by decide⟩] }

def without (id : DeviceId) (p : ProtocolId) : ConfigDir.Outcome Unit Unit Unit :=
  Attic.attic.run (formats id) installed Attic.works (.forgetProtocol p)

lemma without_ok {id : DeviceId} {p : ProtocolId} (h : (without id p).1 = .ok) :
    without id p = (.ok, (without id p).2.1, (without id p).2.2) := by
  generalize without id p = outcome at h
  obtain ⟨answer, saved, core⟩ := outcome
  cases h
  rfl

end Uninstalled

open Uninstalled in
theorem takesOwn_demo :
    TakesOwn (fun q u => q = demo ∧ u = lamp) (protocolsOf installed.installed) demo
      (Attic.attic.reload (formats (deviceIdFor demo lamp))).settings.devices
      (without (deviceIdFor demo lamp) demo).2.1.settings.devices := by
  refine (takesOwn_iff _ (without_ok (by decide +kernel))).mpr ⟨?_, ?_⟩
  · rintro u ⟨-, rfl⟩ -
    refine ⟨.inl (by decide), fun q hq hne hbegins => ?_⟩
    have hlist : protocolsOf installed.installed = [demo, demoExtra, long] := by decide +kernel
    rw [hlist] at hq
    simp only [List.mem_cons, List.not_mem_nil, or_false] at hq
    rcases hq with rfl | rfl | rfl
    · exact absurd rfl hne
    · exact absurd hbegins.2 (by decide +kernel)
    · exact absurd hbegins.1 (by decide +kernel)
  · rintro q - hne u ⟨rfl, -⟩
    exact absurd rfl hne

open Uninstalled in
/-- A protocol of 63 characters leaves its devices behind; and one whose name goes on where
another's ends takes that one's. -/
theorem not_takesOwn :
    ¬ TakesOwn (fun q u => q = long ∧ u = lamp) (protocolsOf installed.installed) long
      (Attic.attic.reload (formats (deviceIdFor long lamp))).settings.devices
      (without (deviceIdFor long lamp) long).2.1.settings.devices ∧
    ¬ TakesOwn (fun q u => q = demo ∧ u = extraLamp) (protocolsOf installed.installed) demoExtra
      (Attic.attic.reload (formats (deviceIdFor demo extraLamp))).settings.devices
      (without (deviceIdFor demo extraLamp) demoExtra).2.1.settings.devices := by
  constructor
  · intro h
    have hgone := h.removes lamp ⟨rfl, rfl⟩
    have hstays : ((without (deviceIdFor long lamp) long).2.1.settings.devices[
        deviceIdFor long lamp]?).isSome = true := by decide +kernel
    rw [hgone] at hstays
    cases hstays
  · intro h
    have hinstalled : demo ∈ protocolsOf installed.installed := by decide +kernel
    have hstays := h.keeps demo hinstalled (by decide) extraLamp ⟨rfl, rfl⟩
    exact absurd hstays (by decide +kernel)

end Irori.Proofs

import Irori.Proofs.Slugs
import Irori.Server.Adding

/-!
# Signing in by name

A name is looked for among the names and the ids at once, and an id stays as it was made when its
person is renamed. So a name can be another's id. As long as none is, and an owner isn't set up
under a name somebody has, everybody can sign in with the name they have.
-/

namespace Irori.Server
open Config

variable {x : Crypto} {people people' : People}

/-- Everybody is found by their name and by their id, however these are typed, and nobody else is. -/
def EverybodyFound (x : Crypto) (people : People) : Prop :=
  ∀ user ∈ people.users, ∀ typed : String,
    x.fold typed = x.fold user.name ∨ x.fold typed = x.fold user.id.text →
      found x people typed = some user

structure Distinct (x : Crypto) (users : List User) : Prop where
  ids : (users.map User.id).Nodup
  names : ∀ user ∈ users, ∀ other ∈ users, x.fold user.name = x.fold other.name →
    user.id = other.id
  apart : ∀ user ∈ users, ∀ other ∈ users, x.fold user.name = other.id.text → user.id = other.id

/-- A change that gives nobody a name that is another's id, or an id that is another's name, and sets
no owner up under a name somebody else has. -/
def Spares (x : Crypto) (people : People) : PeopleChange → Prop
  | .setUp name _ => ∀ fresh : UserId, userIdFrom name = some fresh → ∀ user ∈ people.users,
      match people.users.find? fun user => user.role.runsTheHome with
      | some owner => user.id ≠ owner.id →
          x.fold user.name ≠ x.fold name ∧ user.id.text ≠ x.fold name
      | none => x.fold user.name ≠ x.fold name ∧ user.id.text ≠ x.fold name ∧
          user.id ≠ fresh ∧ x.fold user.name ≠ fresh.text
  | .add name _ _ => ∀ base id : UserId, userIdFrom name = some base →
      newUserId people base = some id → ∀ user ∈ people.users,
        user.id.text ≠ x.fold name ∧ x.fold user.name ≠ id.text
  | .edit call _ => ∀ name, call.edit.name = some name → ∀ user ∈ people.users,
      user.id ≠ call.id → user.id.text ≠ x.fold name

inductive Made (x : Crypto) : People → Prop
  | start : Made x ⟨[], ∅⟩
  | change {people people' : People} {change : PeopleChange} : Made x people →
      Spares x people change → change.apply x people = some people' → Made x people'

lemma eq_of_id {users : List User} (h : (users.map User.id).Nodup) {a b : User} (ha : a ∈ users)
    (hb : b ∈ users) (hid : a.id = b.id) : a = b :=
  List.inj_on_of_nodup_map h ha hb hid

lemma everybodyFound_of_distinct (hfold : ∀ id : UserId, x.fold id.text = id.text)
    (h : Distinct x people.users) : EverybodyFound x people := by
  intro user huser typed htyped
  rw [hfold] at htyped
  unfold found
  have hmatches : ∀ other ∈ people.users,
      other.id.text = x.fold typed ∨ x.fold other.name = x.fold typed → other = user := by
    intro other hother hmatch
    refine eq_of_id h.ids hother huser ?_
    rcases htyped with hname | hid <;> rcases hmatch with hother' | hother'
    · exact (h.apart user huser other hother (hname.symm.trans hother'.symm)).symm
    · exact h.names other hother user huser (hother'.trans hname)
    · exact Slug.text_injective (hother'.trans hid)
    · exact h.apart other hother user huser (hother'.trans hid)
  have hfound : (people.users.find? fun other =>
      other.id.text = x.fold typed || x.fold other.name = x.fold typed).isSome = true := by
    rw [List.find?_isSome]
    refine ⟨user, huser, ?_⟩
    rcases htyped with hname | hid
    · simp [hname]
    · simp [hid]
  obtain ⟨other, hother⟩ := Option.isSome_iff_exists.mp hfound
  rw [hother]
  have hmatch := List.find?_some hother
  simp only [Bool.or_eq_true, decide_eq_true_eq] at hmatch
  exact congrArg some (hmatches other (List.mem_of_find?_eq_some hother) hmatch)

lemma distinct_cons {users users' : List User} {new : User} (h : Distinct x users)
    (hperm : users'.Perm (new :: users))
    (hnew : ∀ user ∈ users, user.id ≠ new.id ∧ x.fold user.name ≠ x.fold new.name ∧
      user.id.text ≠ x.fold new.name ∧ x.fold user.name ≠ new.id.text) : Distinct x users' := by
  refine ⟨(hperm.map User.id).nodup_iff.mpr ?_, fun user huser other hother heq => ?_,
    fun user huser other hother heq => ?_⟩
  · rw [List.map_cons, List.nodup_cons]
    refine ⟨fun hmem => ?_, h.ids⟩
    obtain ⟨user, huser, hid⟩ := List.mem_map.mp hmem
    exact (hnew user huser).1 hid
  · rcases List.mem_cons.mp (hperm.mem_iff.mp huser) with rfl | huser <;>
      rcases List.mem_cons.mp (hperm.mem_iff.mp hother) with rfl | hother
    · rfl
    · exact absurd heq.symm (hnew other hother).2.1
    · exact absurd heq (hnew user huser).2.1
    · exact h.names user huser other hother heq
  · rcases List.mem_cons.mp (hperm.mem_iff.mp huser) with rfl | huser <;>
      rcases List.mem_cons.mp (hperm.mem_iff.mp hother) with rfl | hother
    · rfl
    · exact absurd heq.symm (hnew other hother).2.2.1
    · exact absurd heq (hnew user huser).2.2.2
    · exact h.apart user huser other hother heq

lemma distinct_rename {users users' : List User} (who : UserId) (h : Distinct x users)
    (hids : users'.map User.id = users.map User.id)
    (hfrom : ∀ new ∈ users', ∃ user ∈ users, new.id = user.id ∧
      (new.name = user.name ∨ user.id = who ∧ ∀ other ∈ users, other.id ≠ who →
        x.fold other.name ≠ x.fold new.name ∧ other.id.text ≠ x.fold new.name)) :
    Distinct x users' := by
  refine ⟨hids ▸ h.ids, fun a' ha' b' hb' heq => ?_, fun a' ha' b' hb' heq => ?_⟩
  · obtain ⟨a, ha, hida, hnamea⟩ := hfrom a' ha'
    obtain ⟨b, hb, hidb, hnameb⟩ := hfrom b' hb'
    rw [hida, hidb]
    rcases hnamea with hnamea | ⟨hwhoa, hnewa⟩ <;> rcases hnameb with hnameb | ⟨hwhob, hnewb⟩
    · rw [hnamea, hnameb] at heq
      exact h.names a ha b hb heq
    · by_contra hne
      rw [hnamea] at heq
      exact (hnewb a ha fun hwho => hne (hwho.trans hwhob.symm)).1 heq
    · by_contra hne
      rw [hnameb] at heq
      exact (hnewa b hb fun hwho => hne (hwhoa.trans hwho.symm)).1 heq.symm
    · exact hwhoa.trans hwhob.symm
  · obtain ⟨a, ha, hida, hnamea⟩ := hfrom a' ha'
    obtain ⟨b, hb, hidb, -⟩ := hfrom b' hb'
    rw [hida, hidb]
    rw [hidb] at heq
    rcases hnamea with hnamea | ⟨hwhoa, hnewa⟩
    · rw [hnamea] at heq
      exact h.apart a ha b hb heq
    · by_contra hne
      exact (hnewa b hb fun hwho => hne (hwhoa.trans hwho.symm)).2 heq.symm

lemma edit_users {α : Type} {change : People → Except String (People × α)}
    (h : ((people.edit change).toOption).map (·.1) = some people') :
    ∃ changed made, change people = .ok (changed, made) ∧ people'.users = changed.users := by
  unfold People.edit at h
  split at h
  · cases h
  · next changed made hchange =>
    split at h
    · cases h
    · obtain rfl := Option.some.inj h
      exact ⟨changed, made, hchange, rfl⟩

lemma newUserId_free {base id : UserId} (h : newUserId people base = some id) :
    ∀ user ∈ people.users, user.id ≠ id := by
  have hnone := List.find?_some h
  rw [Option.isNone_iff_eq_none] at hnone
  intro user huser hid
  have hnot := List.find?_eq_none.mp hnone user huser
  exact hnot (by simpa using hid)

lemma setUp_distinct {name hash : String} (h : Distinct x people.users)
    (hspares : Spares x people (.setUp name hash))
    (happly : (PeopleChange.setUp name hash).apply x people = some people') :
    Distinct x people'.users := by
  obtain ⟨fresh, hfresh, hedit⟩ := Option.bind_eq_some_iff.mp happly
  obtain ⟨changed, made, hchange, husers⟩ := edit_users hedit
  have hspares := hspares fresh hfresh
  rw [husers]
  unfold ownerOf at hchange
  split at hchange
  · cases hchange
  · split at hchange
    · next i hi =>
      obtain ⟨rfl, -⟩ := Prod.mk.inj (Except.ok.inj hchange)
      obtain ⟨hlt, hruns, -⟩ := List.findIdx?_eq_some_iff_getElem.mp hi
      have howner : people.users.find? (fun user => user.role.runsTheHome) = some people.users[i] := by
        rw [List.find?_eq_bind_findIdx?_getElem?, hi]
        exact List.getElem?_eq_getElem hlt
      rw [howner] at hspares
      refine distinct_rename people.users[i].id h ?_ ?_
      · refine List.ext_getElem? fun j => ?_
        rw [List.getElem?_map, List.getElem?_map, List.getElem?_modify]
        cases people.users[j]? with
        | none => rfl
        | some user => by_cases hij : i = j <;> simp [hij]
      · intro new hnew
        obtain ⟨j, hj⟩ := List.mem_iff_getElem?.mp hnew
        rw [List.getElem?_modify] at hj
        obtain ⟨user, huser, rfl⟩ := Option.map_eq_some_iff.mp hj
        refine ⟨user, List.mem_of_getElem? huser, ?_⟩
        by_cases hij : i = j
        · subst hij
          obtain rfl : people.users[i] = user := by
            rw [List.getElem?_eq_getElem hlt] at huser
            exact Option.some.inj huser
          rw [if_pos rfl]
          exact ⟨rfl, .inr ⟨rfl, hspares⟩⟩
        · rw [if_neg hij]
          exact ⟨rfl, .inl rfl⟩
    · next hi =>
      obtain ⟨rfl, -⟩ := Prod.mk.inj (Except.ok.inj hchange)
      have howner : people.users.find? (fun user => user.role.runsTheHome) = none := by
        rw [List.find?_eq_bind_findIdx?_getElem?, hi]
        rfl
      rw [howner] at hspares
      refine distinct_cons h
        ((List.perm_insertionSort _ _).trans (List.perm_append_singleton _ _)) fun user huser => ?_
      obtain ⟨hname, hid, hfree, hfold⟩ := hspares user huser
      exact ⟨hfree, hname, hid, hfold⟩

lemma add_distinct {name : String} {role : Role} {hash : Option String}
    (h : Distinct x people.users) (hspares : Spares x people (.add name role hash))
    (happly : (PeopleChange.add name role hash).apply x people = some people') :
    Distinct x people'.users := by
  obtain ⟨base, hbase, hedit⟩ := Option.bind_eq_some_iff.mp happly
  obtain ⟨changed, made, hchange, husers⟩ := edit_users hedit
  rw [husers]
  unfold addedUser at hchange
  split at hchange
  · cases hchange
  · split at hchange
    · cases hchange
    · split at hchange
      · cases hchange
      · next hname =>
        split at hchange
        · cases hchange
        · next id hid =>
          obtain ⟨rfl, -⟩ := Prod.mk.inj (Except.ok.inj hchange)
          refine distinct_cons h
            ((List.perm_insertionSort _ _).trans (List.perm_append_singleton _ _)) fun user huser => ?_
          obtain ⟨hidname, hnameid⟩ := hspares base id hbase hid user huser
          refine ⟨newUserId_free hid user huser, fun heq => hname ?_, hidname, hnameid⟩
          exact List.any_eq_true.mpr ⟨user, huser, by simpa using heq⟩

lemma edit_distinct {call : EditCall} {hash : Option String} (h : Distinct x people.users)
    (hspares : Spares x people (.edit call hash))
    (happly : (PeopleChange.edit call hash).apply x people = some people') :
    Distinct x people'.users := by
  obtain ⟨changed, made, hchange, husers⟩ := edit_users happly
  rw [husers]
  unfold EditCall.change at hchange
  split at hchange
  · cases hchange
  · split at hchange
    · cases hchange
    · next htaken =>
      split at hchange
      · cases hchange
      · obtain ⟨rfl, -⟩ := Prod.mk.inj (Except.ok.inj hchange)
        have hids : ∀ user, (call.changed user).id = user.id := fun user => by
          unfold EditCall.changed
          split <;> rfl
        have hmap : (people.users.map call.changed).map User.id = people.users.map User.id := by
          rw [List.map_map]
          exact List.map_congr_left fun user _ => hids user
        refine distinct_rename call.id h hmap fun new hnew => ?_
        obtain ⟨user, huser, rfl⟩ := List.mem_map.mp hnew
        refine ⟨user, huser, hids user, ?_⟩
        by_cases hwho : user.id = call.id
        · have hnamed : (call.changed user).name = call.edit.name.getD user.name := by
            unfold EditCall.changed
            rw [if_pos hwho]
          cases hname : call.edit.name with
          | none =>
            rw [hname] at hnamed
            exact .inl hnamed
          | some name =>
            rw [hname] at hnamed
            refine .inr ⟨hwho, fun other hother hne => ?_⟩
            rw [hnamed]
            refine ⟨fun heq => htaken ?_, hspares name hname other hother hne⟩
            unfold EditCall.nameTaken
            rw [hname]
            exact List.any_eq_true.mpr ⟨other, hother, by simpa [hne] using heq⟩
        · refine .inl ?_
          unfold EditCall.changed
          rw [if_neg hwho]

theorem everybodyFound_of_made (hfold : ∀ id : UserId, x.fold id.text = id.text)
    (h : Made x people) : EverybodyFound x people := by
  refine everybodyFound_of_distinct hfold ?_
  induction h with
  | start => exact ⟨List.nodup_nil, fun _ h => (by cases h), fun _ h => (by cases h)⟩
  | @change people people' change _ hspares happly ih =>
    cases change with
    | setUp name hash => exact setUp_distinct ih hspares happly
    | add name role hash => exact add_distinct ih hspares happly
    | edit call hash => exact edit_distinct ih hspares happly

def lowerCrypto : Crypto where
  fingerprint := id
  hash password _ := password
  verify password hash := password == hash
  fold text := String.ofList ((Core.trim text).toList.map Char.toLower)

lemma isSlugChar_folded {c : Char} (h : isSlugChar c = true) :
    isWhitespace c = false ∧ c.toLower = c := by
  have hword : (97 ≤ c.toNat ∧ c.toNat ≤ 122) ∨ (48 ≤ c.toNat ∧ c.toNat ≤ 57) ∨ c.toNat = 95 := by
    simp only [isSlugChar, Bool.or_eq_true, Bool.and_eq_true, decide_eq_true_eq, beq_iff_eq] at h
    rcases h with (h | h) | h
    · exact .inl ⟨Char.le_def.mp h.1, Char.le_def.mp h.2⟩
    · exact .inr (.inl ⟨Char.le_def.mp h.1, Char.le_def.mp h.2⟩)
    · exact .inr (.inr (by rw [h]; rfl))
  rw [← Char.ofNat_toNat c]
  generalize c.toNat = n at hword
  rcases hword with ⟨hlo, hhi⟩ | ⟨hlo, hhi⟩ | rfl
  · interval_cases n <;> decide
  · interval_cases n <;> decide
  · decide

lemma fold_id (id : UserId) : lowerCrypto.fold id.text = id.text := by
  have hchars : ∀ c ∈ id.text.toList, isWhitespace c = false ∧ c.toLower = c := fun c hc =>
    isSlugChar_folded ((Proofs.slugBase_of_checkSlug id.wellFormed).1.1.2 c hc)
  have htrim : Core.trim id.text = id.text := by
    unfold Core.trim
    rw [List.dropWhile_eq_self_iff.mpr, List.rdropWhile_eq_self_iff.mpr, String.ofList_toList]
    · intro hne
      simp [hchars _ (List.getLast_mem hne)]
    · intro hlen
      simp [hchars _ (List.getElem_mem hlen)]
  have hlower : id.text.toList.map Char.toLower = id.text.toList :=
    (List.map_congr_left fun c hc => (hchars c hc).2).trans (List.map_id _)
  show String.ofList ((Core.trim id.text).toList.map Char.toLower) = id.text
  rw [htrim, hlower, String.ofList_toList]

def twoPeople (owner other : String) : Option People :=
  ((PeopleChange.setUp owner "password-1").apply lowerCrypto ⟨[], ∅⟩).bind fun people =>
    (PeopleChange.add other .user (some "password-2")).apply lowerCrypto people

theorem everybodyFound_anna : ∃ people, twoPeople "Anna" "Ben" = some people ∧
    EverybodyFound lowerCrypto people := by
  obtain ⟨first, hfirst⟩ : ∃ first,
      (PeopleChange.setUp "Anna" "password-1").apply lowerCrypto ⟨[], ∅⟩ = some first :=
    Option.isSome_iff_exists.mp (by decide)
  have hadded : twoPeople "Anna" "Ben" =
      (PeopleChange.add "Ben" .user (some "password-2")).apply lowerCrypto first := by
    rw [twoPeople, hfirst, Option.bind_some]
  obtain ⟨second, hsecond⟩ : ∃ second, twoPeople "Anna" "Ben" = some second :=
    Option.isSome_iff_exists.mp (by decide +kernel)
  have husers : ((PeopleChange.setUp "Anna" "password-1").apply lowerCrypto ⟨[], ∅⟩).map
      People.users = some [⟨⟨"anna", by decide⟩, "Anna", .owner⟩] := by decide
  rw [hfirst] at husers
  have husers := Option.some.inj husers
  have hben : userIdFrom "Ben" = some ⟨"ben", by decide⟩ := by decide
  have hid : newUserId first ⟨"ben", by decide⟩ = some ⟨"ben", by decide⟩ := by
    unfold newUserId People.user
    rw [husers]
    decide
  have hspares : Spares lowerCrypto first (.add "Ben" .user (some "password-2")) := by
    intro base id hbase hnew user huser
    obtain rfl := Option.some.inj (hben.symm.trans hbase)
    obtain rfl := Option.some.inj (hid.symm.trans hnew)
    rw [husers, List.mem_singleton] at huser
    subst huser
    decide
  refine ⟨second, hsecond, everybodyFound_of_made fold_id ?_⟩
  have hstart : Spares lowerCrypto ⟨[], ∅⟩ (.setUp "Anna" "password-1") :=
    fun _ _ _ huser => (by cases huser)
  exact .change (.change .start hstart hfirst) hspares (hadded.symm.trans hsecond)

/-- Somebody called as another's id signs in with their own name, and is taken for the other. -/
theorem not_everybodyFound_anna : ∃ people, twoPeople "Anna!" "Anna" = some people ∧
    ¬ EverybodyFound lowerCrypto people := by
  obtain ⟨people, hpeople⟩ : ∃ people, twoPeople "Anna!" "Anna" = some people :=
    Option.isSome_iff_exists.mp (by decide +kernel)
  have husers : (twoPeople "Anna!" "Anna").map People.users = some
      [⟨⟨"anna", by decide⟩, "Anna!", .owner⟩, ⟨⟨"anna_2", by decide⟩, "Anna", .user⟩] := by
    decide +kernel
  rw [hpeople] at husers
  have husers := Option.some.inj husers
  refine ⟨people, hpeople, fun h => ?_⟩
  have hanna := h ⟨⟨"anna_2", by decide⟩, "Anna", .user⟩ (by simp [husers]) "Anna" (.inl rfl)
  unfold found at hanna
  rw [husers] at hanna
  revert hanna
  decide

end Irori.Server

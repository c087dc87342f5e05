import Irori.Assistant.Chats
import Irori.Lib.Index

/-!
# What is told in chats

What a chat reads of earlier ones was answered from what the person has now, as long as every answer
is stored while all it was drawn from is noted of them, and read while nothing else is.
-/

namespace Irori.Assistant
open Irori.Core (Reach Thing Rooms)

lemma isSlugChar_of_checked {what value : String} (hchecked : checkSlug what value = .ok ())
    {c : Char} (h : c ∈ value.toList) : isSlugChar c = true := by
  unfold checkSlug at hchecked
  dsimp only at hchecked
  split_ifs at hchecked with _ _ hall
  rw [Bool.not_eq_true', Bool.not_eq_false] at hall
  exact List.all_eq_true.mp hall c h

lemma newline_notMem_slug {what : String} (id : Slug what) : '\n' ∉ id.text.toList := fun h =>
  absurd (isSlugChar_of_checked id.wellFormed h) (by decide)

lemma hash_notMem_slug {what : String} (id : Slug what) : '#' ∉ id.text.toList := fun h =>
  absurd (isSlugChar_of_checked id.wellFormed h) (by decide)

lemma newline_notMem_domain (kind : EntityKind) : '\n' ∉ kind.domain.toList := by
  cases kind <;> decide

lemma toList_splitOnce {c : Char} {text : String} {parts : String × String}
    (h : splitOnce c text = some parts) : text.toList = parts.1.toList ++ c :: parts.2.toList := by
  unfold splitOnce at h
  dsimp only at h
  split at h
  · next hmem =>
    cases h
    rw [String.toList_ofList, String.toList_ofList]
    have hsplit := List.takeWhile_append_dropWhile (p := fun x => x != c) (l := text.toList)
    have hne : text.toList.dropWhile (fun x => x != c) ≠ [] := by
      intro hnil
      have hall := List.dropWhile_eq_nil_iff.mp hnil c (List.contains_iff_mem.mp hmem)
      simp at hall
    obtain ⟨first, rest, hrest⟩ := List.exists_cons_of_ne_nil hne
    have hfirst : first = c := by
      have hnot := List.head_dropWhile_not (fun x => x != c) hne
      simpa [hrest] using hnot
    rw [hrest, hfirst] at hsplit
    rw [hrest, List.drop_one, List.tail_cons]
    exact hsplit.symm
  · cases h

lemma newline_notMem_entity (id : EntityId) : '\n' ∉ id.text.toList := by
  have hchecked := id.wellFormed
  unfold checkEntityId at hchecked
  split at hchecked
  · cases hchecked
  · next domain objectId hsplit =>
    split at hchecked
    · cases hchecked
    · next hknown =>
      cases hkind : EntityKind.fromDomain domain with
      | none =>
        rw [hkind] at hknown
        exact absurd rfl hknown
      | some kind =>
        have hfound := List.find?_some hkind
        have hdomain : kind.domain = domain := beq_iff_eq.mp hfound
        rw [toList_splitOnce hsplit, List.mem_append, List.mem_cons, ← hdomain]
        rintro (hin | hdot | hin)
        · exact newline_notMem_domain kind hin
        · cases hdot
        · exact absurd (isSlugChar_of_checked hchecked hin) (by decide)

lemma newline_notMem_mark (thing : Thing) : '\n' ∉ thing.mark.toList := by
  cases thing with
  | area id =>
    simpa [Thing.mark] using newline_notMem_slug id
  | floor id =>
    simpa [Thing.mark] using newline_notMem_slug id
  | device id =>
    simpa [Thing.mark] using newline_notMem_slug id
  | entity id =>
    simpa [Thing.mark] using newline_notMem_entity id

lemma mark_injective : Function.Injective Thing.mark := by
  intro a b h
  have hlist := congrArg String.toList h
  cases a <;> cases b <;> simp [Thing.mark, String.toList_append] at hlist
  all_goals
    congr 1
    first
      | exact Slug.text_injective (String.toList_inj.mp hlist)
      | exact EntityId.text_injective (String.toList_inj.mp hlist)

lemma mark_ne {thing : Thing} {text : String} (h : text.length ≤ 1) : thing.mark ≠ text := by
  have htwo : 2 ≤ thing.mark.length := by
    cases thing <;> (unfold Thing.mark; rw [String.length_append]; exact Nat.le_add_right 2 _)
  rintro rfl
  omega

lemma mem_marks {reach : Reach} {marks : Finset String} (h : reach.marks = some marks)
    {mark : String} : mark ∈ marks ↔ ∃ thing, reach.sees thing = true ∧ thing.mark = mark := by
  cases reach with
  | whole => cases h
  | rooms held =>
    cases h
    simp only [Finset.mem_union, Finset.mem_image]
    constructor
    · rintro (((⟨id, hid, rfl⟩ | ⟨id, hid, rfl⟩) | ⟨id, hid, rfl⟩) | ⟨id, hid, rfl⟩)
      · exact ⟨.area id, decide_eq_true hid, rfl⟩
      · exact ⟨.floor id, decide_eq_true hid, rfl⟩
      · exact ⟨.device id, decide_eq_true hid, rfl⟩
      · exact ⟨.entity id, decide_eq_true hid, rfl⟩
    · rintro ⟨thing, hsees, rfl⟩
      cases thing with
      | area id => exact .inl (.inl (.inl ⟨id, of_decide_eq_true hsees, rfl⟩))
      | floor id => exact .inl (.inl (.inr ⟨id, of_decide_eq_true hsees, rfl⟩))
      | device id => exact .inl (.inr ⟨id, of_decide_eq_true hsees, rfl⟩)
      | entity id => exact .inr ⟨id, of_decide_eq_true hsees, rfl⟩

open Memory in
lemma lines_joined {marks : List String} (hne : marks ≠ []) (hmarks : ∀ mark ∈ marks,
    '\n' ∉ mark.toList) : lines (joined marks) = marks := by
  unfold lines joined
  rw [String.toList_ofList, List.splitOn_intercalate]
  · rw [List.map_map]
    exact (List.map_congr_left fun mark _ => String.ofList_toList).trans (List.map_id marks)
  · intro l hl
    obtain ⟨mark, hmark, rfl⟩ := List.mem_map.mp hl
    exact hmarks mark hmark
  · simpa using hne

lemma mem_inOrder {set : Finset String} {mark : String} : mark ∈ Memory.inOrder set ↔ mark ∈ set := by
  obtain ⟨⟨marks⟩, _⟩ := set
  exact List.mem_insertionSort _

lemma lines_current {reach : Reach} {marks : Finset String} (h : reach.marks = some marks) :
    (∀ mark ∈ marks, mark ∈ Memory.lines (Memory.current reach)) ∧
      ∀ mark ∈ Memory.lines (Memory.current reach), mark ≠ "" → mark ∈ marks := by
  have hcurrent : Memory.current reach = Memory.joined (Memory.inOrder marks) := by
    unfold Memory.current
    rw [h]
  rw [hcurrent]
  by_cases hempty : marks = ∅
  · subst hempty
    refine ⟨fun mark hmark => absurd hmark (Finset.notMem_empty mark), fun mark hmark hne => ?_⟩
    have hblank : Memory.lines (Memory.joined (Memory.inOrder ∅)) = [""] := by decide +kernel
    rw [hblank] at hmark
    exact absurd (List.mem_singleton.mp hmark) hne
  · have hlines : Memory.lines (Memory.joined (Memory.inOrder marks)) = Memory.inOrder marks := by
      refine lines_joined (fun hnil => hempty ?_) fun mark hmark => ?_
      · refine Finset.eq_empty_of_forall_notMem fun mark hmark => ?_
        have hin := mem_inOrder.mpr hmark
        rw [hnil] at hin
        cases hin
      · obtain ⟨thing, _, rfl⟩ := (mem_marks h).mp (mem_inOrder.mp hmark)
        exact newline_notMem_mark thing
    rw [hlines]
    exact ⟨fun mark hmark => mem_inOrder.mpr hmark, fun mark hmark _ => mem_inOrder.mp hmark⟩

lemma current_ne {reach : Reach} {marks : Finset String} (h : reach.marks = some marks) :
    Memory.current reach ≠ "*" := by
  intro hstar
  have hin := (lines_current h).2 "*" (by rw [hstar]; decide) (by decide)
  obtain ⟨thing, _, hmark⟩ := (mem_marks h).mp hin
  exact mark_ne (by decide) hmark

/-- All that a reach has is written down. -/
def Covers (row : String) (reach : Reach) : Prop :=
  row = "*" ∨ ∃ marks, reach.marks = some marks ∧ ∀ mark ∈ marks, mark ∈ Memory.lines row

def Within (a b : Reach) : Prop := ∀ thing, a.sees thing = true → b.sees thing = true

lemma within_of_covers {a b : Reach} (h : Covers (Memory.current b) a) : Within a b := by
  intro thing hsees
  cases hb : b.marks with
  | none =>
    cases b with
    | whole => rfl
    | rooms held => cases hb
  | some marks =>
    rcases h with hstar | ⟨mine, hmine, hlines⟩
    · exact absurd hstar (current_ne hb)
    · have hmark := hlines thing.mark ((mem_marks hmine).mpr ⟨thing, hsees, rfl⟩)
      obtain ⟨other, hother, hsame⟩ := (mem_marks hb).mp
        ((lines_current hb).2 thing.mark hmark (mark_ne (by decide)))
      exact mark_injective hsame ▸ hother

/-- Nothing is written down that isn't in a reach. -/
def spans (reach : Reach) (row : String) : Bool :=
  match reach.marks with
  | none => true
  | some marks =>
    row != "*" && (Memory.lines row).all fun mark => mark.isEmpty || decide (mark ∈ marks)

/-- What is written down is all of the home, or has everything that is in a reach. -/
def covers (reach : Reach) (row : String) : Bool :=
  row == "*" ||
    match reach.marks with
    | none => false
    | some marks => decide (∀ mark ∈ marks, mark ∈ Memory.lines row)

/-- What a chat reads was answered from what is still in the reach it keeps to. -/
def ToldAt (s : Chatting) : ChatStep → Prop
  | .loads k =>
    match s.chats[k]? with
    | some ⟨user, scope, reach, .kept⟩ =>
      ∀ turn ∈ s.memory.loadTurns (rememberedIn scope user), Within turn.answeredFrom reach
    | _ => True
  | _ => True

def AllTold (s : Chatting) : List ChatStep → Prop
  | [] => True
  | step :: steps => ToldAt s step ∧ AllTold (s.after step) steps

/-- An answer is stored while everything it was drawn from is noted of the person, if anything is, and
a conversation is read while nothing is noted that the chat hasn't kept to. -/
def HeedsReach (s : Chatting) : ChatStep → Bool
  | .loads k =>
    match s.chats[k]? with
    | some ⟨user, scope, reach, .kept⟩ =>
      (s.memory.loadTurns (rememberedIn scope user)).isEmpty ||
        (s.memory.noted[user]?).any (spans reach)
    | _ => true
  | .stores k _ _ =>
    match s.chats[k]? with
    | some ⟨user, _, reach, .confirmed⟩ => (s.memory.noted[user]?).all (covers reach)
    | _ => true
  | _ => true

def AllHeedReach (s : Chatting) : List ChatStep → Bool
  | [] => true
  | step :: steps => HeedsReach s step && AllHeedReach (s.after step) steps

/-- The person whose conversation is kept under a key. -/
def IsOf (user : UserId) (key : String) : Prop := ("#" ++ user.text).toList <:+ key.toList

/-- What is remembered of somebody was answered from what is noted of them. -/
def Told (memory : Memory) : Prop :=
  ∀ message ∈ memory.messages, ∀ (user : UserId) (row : String),
    memory.noted[user]? = some row → IsOf user message.scope → Covers row message.answeredFrom

lemma toList_rememberedIn (scope : String) (user : UserId) :
    (rememberedIn scope user).toList = scope.toList ++ ("#" ++ user.text).toList := by
  unfold rememberedIn
  rw [String.append_assoc, String.toList_append]

lemma isOf_rememberedIn (scope : String) (user : UserId) : IsOf user (rememberedIn scope user) := by
  unfold IsOf
  rw [toList_rememberedIn]
  exact List.suffix_append _ _

lemma eq_of_isOf {scope : String} {user other : UserId} (h : IsOf other (rememberedIn scope user)) :
    other = user := by
  obtain ⟨front, hfront⟩ := h
  have hrev := congrArg (fun chars => (chars.reverse.takeWhile fun c => c != '#').reverse) hfront
  have hcut : ∀ (front : List Char) (id : UserId),
      (((front ++ ("#" ++ id.text).toList).reverse.takeWhile fun c => c != '#').reverse) =
        id.text.toList := by
    intro front id
    have hall : ∀ c ∈ id.text.toList.reverse, (c != '#') = true := by
      intro c hc
      rw [bne_iff_ne]
      rintro rfl
      exact hash_notMem_slug id (List.mem_reverse.mp hc)
    rw [String.toList_append, List.reverse_append, List.reverse_append, List.append_assoc,
      List.takeWhile_append_of_pos hall]
    simp
  rw [toList_rememberedIn, hcut, hcut] at hrev
  exact Slug.text_injective (String.toList_inj.mp hrev)

lemma Told.fewer {memory memory' : Memory} (h : Told memory)
    (hmessages : ∀ message ∈ memory'.messages, message ∈ memory.messages)
    (hnoted : ∀ (user : UserId) (row : String), memory'.noted[user]? = some row →
      memory.noted[user]? = some row) : Told memory' :=
  fun message hmessage user row hrow => h message (hmessages message hmessage) user row
    (hnoted user row hrow)

lemma Told.forget {memory : Memory} (h : Told memory) (user : UserId) :
    Told (memory.forgetConversationsOf user) :=
  h.fewer (fun _ hmessage => List.mem_of_mem_filter hmessage) fun _ _ hrow =>
    (Map.get_erase_some hrow).2

lemma covers_current {row : String} {a b : Reach} (hkept : Memory.lost (some row) b.marks = false)
    (h : Covers row a) : Covers (Memory.current b) a := by
  unfold Memory.lost at hkept
  cases hb : b.marks with
  | none =>
    left
    unfold Memory.current
    rw [hb]
  | some marks =>
    rw [hb] at hkept
    dsimp only at hkept
    rw [Bool.or_eq_false_iff, beq_eq_false_iff_ne] at hkept
    rcases h with hstar | ⟨mine, hmine, hlines⟩
    · exact absurd hstar hkept.1
    · refine .inr ⟨mine, hmine, fun mark hmark => ?_⟩
      obtain ⟨thing, _, rfl⟩ := (mem_marks hmine).mp hmark
      have hthere := List.any_eq_false.mp hkept.2 _ (hlines _ hmark)
      refine (lines_current hb).1 _ ?_
      by_contra hgone
      refine hthere ?_
      rw [Bool.and_eq_true]
      refine ⟨?_, decide_eq_true hgone⟩
      rw [Bool.not_eq_true', Bool.eq_false_iff, ne_eq, String.isEmpty_iff]
      exact mark_ne (by decide)

lemma Told.keep {memory : Memory} (h : Told memory) (user : UserId) (reach : Reach) :
    Told (memory.keepToReach user reach).2 := by
  unfold Memory.keepToReach
  dsimp only
  split
  · exact h
  · intro message hmessage other row hrow hof
    dsimp only at hmessage hrow
    rw [Map.get_insert] at hrow
    cases hlost : Memory.lost memory.noted[user]? reach.marks with
    | true =>
      rw [hlost, if_pos rfl] at hmessage hrow
      split at hrow
      · next hsame =>
        subst hsame
        obtain ⟨_, hnot⟩ := List.mem_filter.mp hmessage
        rw [Bool.not_eq_true', Bool.eq_false_iff, ne_eq, List.isSuffixOf_iff_suffix] at hnot
        exact absurd hof hnot
      · exact h.forget user message hmessage other row hrow hof
    | false =>
      rw [hlost, if_neg Bool.false_ne_true] at hmessage hrow
      split at hrow
      · next hsame =>
        subst hsame
        cases hrow
        cases hbefore : memory.noted[user]? with
        | none =>
          rw [hbefore] at hlost
          cases hlost
        | some before =>
          rw [hbefore] at hlost
          exact covers_current hlost (h message hmessage user before hbefore hof)
      · exact h message hmessage other row hrow hof

lemma mem_trimGlobal {fuel : Nat} {messages : List Message} {message : Message}
    (h : message ∈ Memory.trimGlobal fuel messages) : message ∈ messages := by
  induction fuel generalizing messages with
  | zero => exact h
  | succ fuel ih =>
    unfold Memory.trimGlobal at h
    split at h
    · exact h
    · split at h
      · exact List.mem_of_mem_erase (ih h)
      · exact h

lemma mem_storeTurns {memory : Memory} {scope : String} {said : List Turn} {reach : Reach}
    {now : Nat} {message : Message}
    (h : message ∈ (memory.storeTurns scope said reach now).messages) :
    message ∈ memory.messages ∨ (message.scope = scope ∧ message.answeredFrom = reach) := by
  unfold Memory.storeTurns at h
  dsimp only at h
  rcases List.mem_append.mp (mem_trimGlobal h) with hkept | hadded
  · left
    split at hkept
    · exact List.mem_of_mem_filter hkept
    · exact List.mem_of_mem_filter hkept
  · right
    obtain ⟨⟨turn, n⟩, _, rfl⟩ := List.mem_map.mp hadded
    exact ⟨rfl, rfl⟩

lemma Told.store {memory : Memory} (h : Told memory) {scope : String} {user : UserId}
    {reach : Reach} (hcovers : (memory.noted[user]?).all (covers reach) = true) (said : List Turn)
    (now : Nat) : Told (memory.storeTurns (rememberedIn scope user) said reach now) := by
  intro message hmessage other row hrow hof
  rcases mem_storeTurns hmessage with hold | ⟨hscope, hreach⟩
  · exact h message hold other row hrow hof
  · rw [hscope] at hof
    have hnoted : memory.noted[user]? = some row := eq_of_isOf hof ▸ hrow
    rw [hnoted, Option.all_some] at hcovers
    rw [hreach]
    unfold covers at hcovers
    rcases Bool.or_eq_true_iff.mp hcovers with hstar | hmarks
    · exact .inl (beq_iff_eq.mp hstar)
    · split at hmarks
      · cases hmarks
      · next marks hsome => exact .inr ⟨marks, hsome, of_decide_eq_true hmarks⟩

variable {s : Chatting}

lemma told_after (h : Told s.memory) {step : ChatStep} (hheeds : HeedsReach s step = true) :
    Told (s.after step).memory := by
  unfold Chatting.after
  unfold HeedsReach at hheeds
  cases step with
  | changes user reach => exact h
  | forgets user => exact h.forget user
  | clears key => exact h.fewer (fun _ hmessage => List.mem_of_mem_filter hmessage) fun _ _ hrow => hrow
  | asks user scope => exact h
  | keeps k =>
    dsimp only
    split
    · exact h.keep _ _
    · exact h
  | loads k =>
    dsimp only
    split
    · exact h
    · exact h
  | confirms k =>
    dsimp only
    split
    · exact h.keep _ _
    · exact h
  | stores k said now =>
    dsimp only at hheeds ⊢
    cases hchat : s.chats[k]? with
    | none => exact h
    | some chat =>
      obtain ⟨user, scope, reach, phase⟩ := chat
      cases phase with
      | confirmed =>
        rw [hchat] at hheeds
        exact h.store hheeds said now
      | _ => exact h
  | ends k =>
    dsimp only
    split
    · exact h
    · exact h

lemma not_lost_of_spans {reach : Reach} {row : String} (h : spans reach row = true) :
    Memory.lost (some row) reach.marks = false := by
  unfold spans at h
  unfold Memory.lost
  cases hmarks : reach.marks with
  | none => rfl
  | some marks =>
    rw [hmarks] at h
    obtain ⟨hstar, hall⟩ := Bool.and_eq_true_iff.mp h
    refine Bool.or_eq_false_iff.mpr ⟨beq_eq_false_iff_ne.mpr (bne_iff_ne.mp hstar), ?_⟩
    refine List.any_eq_false.mpr fun mark hmark hgone => ?_
    obtain ⟨hne, hnot⟩ := Bool.and_eq_true_iff.mp hgone
    rcases Bool.or_eq_true_iff.mp (List.all_eq_true.mp hall mark hmark) with hempty | hin
    · rw [hempty] at hne
      cases hne
    · exact of_decide_eq_true hnot (of_decide_eq_true hin)

lemma toldAt_of_told (h : Told s.memory) {step : ChatStep} (hheeds : HeedsReach s step = true) :
    ToldAt s step := by
  unfold ToldAt
  split
  · next k =>
    split
    · next user scope reach hchat =>
      intro turn hturn
      unfold HeedsReach at hheeds
      dsimp only at hheeds
      rw [hchat] at hheeds
      dsimp only at hheeds
      obtain ⟨hmessage, hscope⟩ := List.mem_filter.mp ((List.mem_insertionSort _).mp hturn)
      rcases Bool.or_eq_true_iff.mp hheeds with hempty | hspans
      · rw [List.isEmpty_iff.mp hempty] at hturn
        cases hturn
      · obtain ⟨row, hrow, hspans⟩ := (Option.any_eq_true _ _).mp hspans
        refine within_of_covers (covers_current (not_lost_of_spans hspans) ?_)
        refine h turn hmessage user row hrow ?_
        rw [beq_iff_eq.mp hscope]
        exact isOf_rememberedIn scope user
    · trivial
  · trivial

lemma allTold_of_told (h : Told s.memory) (steps : List ChatStep)
    (hheed : AllHeedReach s steps = true) : AllTold s steps := by
  induction steps generalizing s with
  | nil => trivial
  | cons step steps ih =>
    rw [AllHeedReach, Bool.and_eq_true] at hheed
    exact ⟨toldAt_of_told h hheed.1, ih (told_after h hheed.1) hheed.2⟩

/-- What a chat reads of earlier ones is still the person's: in every run in which an answer is stored
while everything it was drawn from is noted of them, if anything is, and in which a conversation is
read while nothing is noted that the chat hasn't kept to. -/
theorem allTold_of_heeds (steps : List ChatStep) (h : AllHeedReach .start steps = true) :
    AllTold .start steps :=
  allTold_of_told (fun _ hmessage => absurd hmessage List.not_mem_nil) steps h

def Chatting.afterAll (s : Chatting) : List ChatStep → Chatting
  | [] => s
  | step :: steps => (s.after step).afterAll steps

lemma AllTold.last {steps : List ChatStep} {step : ChatStep} (h : AllTold s (steps ++ [step])) :
    ToldAt (s.afterAll steps) step := by
  induction steps generalizing s with
  | nil => exact h.1
  | cons first steps ih => exact ih h.2

namespace Sample

def leo : UserId := ⟨"leo", by decide +kernel⟩
lemma den_slug : checkSlug "area id" "den" = .ok () := by decide +kernel

def den : AreaId := ⟨"den", den_slug⟩
def attic : AreaId := ⟨"attic", by decide +kernel⟩

def having (areas : Finset AreaId) : Reach := .rooms ⟨areas, ∅, ∅, ∅⟩

def exchange : List Turn := [⟨.user, "hello"⟩, ⟨.assistant, "hi"⟩]

def asksWhile (k : Nat) (meantime : List ChatStep) : List ChatStep :=
  [.asks leo "general", .keeps k, .loads k] ++ meantime ++ [.confirms k, .stores k exchange 0]

def asksAgain (meantime : List ChatStep) (k : Nat) : List ChatStep :=
  [.changes leo (having {den, attic})] ++ asksWhile 0 meantime ++ [.asks leo "general", .keeps k]

def loses : List ChatStep := [.changes leo (having {den}), .asks leo "general", .keeps 1]

end Sample

/-- Whether a chat of Leo's is about to read, having kept to the den. -/
def Sample.isReading (chat : Chat) : Bool :=
  chat.user == Sample.leo && chat.scope == "general" &&
    decide (chat.reach = Sample.having {Sample.den}) &&
      match chat.phase with
      | .kept => true
      | _ => false

theorem allTold_asksAgain : AllTold .start (Sample.asksAgain [] 1 ++ [.loads 1]) :=
  allTold_of_heeds _ (by decide +kernel)

/-- An answer begun before the attic was taken away is stored after another question noted that it
was, and read by the next. -/
theorem not_allTold_asksAgain :
    ¬ AllTold .start (Sample.asksAgain Sample.loses 2 ++ [.loads 2]) := by
  intro h
  have hlast := @AllTold.last .start (Sample.asksAgain Sample.loses 2) (.loads 2) h
  set s := Chatting.afterAll .start (Sample.asksAgain Sample.loses 2) with hs
  have hread : (s.chats[2]?).any Sample.isReading = true := by
    rw [hs]
    decide +kernel
  have hturns : (s.memory.loadTurns (rememberedIn "general" Sample.leo)).any
      (fun turn => turn.answeredFrom.sees (.area Sample.attic)) = true := by
    rw [hs]
    decide +kernel
  obtain ⟨chat, hchat, hreading⟩ := (Option.any_eq_true _ _).mp hread
  obtain ⟨user, scope, reach, phase⟩ := chat
  unfold Sample.isReading at hreading
  simp only [Bool.and_eq_true, beq_iff_eq, decide_eq_true_iff] at hreading
  obtain ⟨⟨⟨rfl, rfl⟩, rfl⟩, hphase⟩ := hreading
  obtain ⟨turn, hturn, hsees⟩ := List.any_eq_true.mp hturns
  cases phase with
  | kept =>
    unfold ToldAt at hlast
    dsimp only at hlast
    rw [hchat] at hlast
    have hattic := hlast turn hturn (.area Sample.attic) hsees
    exact absurd hattic (by decide +kernel)
  | _ => cases hphase

end Irori.Assistant

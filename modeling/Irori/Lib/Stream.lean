import Mathlib.Data.List.Basic
import Mathlib.Tactic

/-!
# Sealed streams

The STREAM construction over any seal: data is cut into chunks of one size, each sealed with its
position and with whether it is the last, and read back block by block. What was sealed opens to
itself, and where a block opens only as what it was sealed as, nothing else opens to its end.
-/

namespace Irori.Stream

variable {α β : Type}

/-- How long a chunk is, how much longer its block is, and how many chunks there can be. -/
structure Format where
  chunk : ℕ
  tag : ℕ
  cap : ℕ
  chunk_pos : 0 < chunk

namespace Format

variable (format : Format)

def block : ℕ := format.chunk + format.tag

/-- Data sealed from a position on, unless there are too many chunks to count. -/
def sealed (put : ℕ → Bool → List α → List β) (position : ℕ) (data : List α) : Option (List β) :=
  if data.length ≤ format.chunk then some (put position true data)
  else if position = format.cap then none
  else (sealed put (position + 1) (data.drop format.chunk)).map
    (put position false (data.take format.chunk) ++ ·)
termination_by data.length
decreasing_by
  have := format.chunk_pos
  rw [List.length_drop]
  omega

/-- Blocks opened from a position on: what comes out, and whether it came to its end. -/
def opened (get : ℕ → Bool → List β → Option (List α)) (position : ℕ) (body : List β) :
    List α × Bool :=
  if body = [] then ([], false)
  else if body.length ≤ format.block then
    match get position true body with
    | some message => (message, true)
    | none => ([], false)
  else if position = format.cap then ([], false)
  else
    match get position false (body.take format.block) with
    | some message =>
      let rest := opened get (position + 1) (body.drop format.block)
      (message ++ rest.1, rest.2)
    | none => ([], false)
termination_by body.length
decreasing_by
  have := format.chunk_pos
  rw [List.length_drop, block]
  omega

/-- The chunks data is cut into, each with its position and whether it is the last. -/
def chunks (position : ℕ) (data : List α) : List (ℕ × Bool × List α) :=
  if data.length ≤ format.chunk then [(position, true, data)]
  else (position, false, data.take format.chunk) ::
    chunks (position + 1) (data.drop format.chunk)
termination_by data.length
decreasing_by
  have := format.chunk_pos
  rw [List.length_drop]
  omega

variable {format} {put : ℕ → Bool → List α → List β} {get : ℕ → Bool → List β → Option (List α)}
  {position : ℕ} {data : List α} {body : List β}

lemma sealed_last (h : data.length ≤ format.chunk) :
    format.sealed put position data = some (put position true data) := by
  rw [sealed, if_pos h]

lemma sealed_next (h : format.chunk < data.length) (hcap : position ≠ format.cap) :
    format.sealed put position data = (format.sealed put (position + 1) (data.drop format.chunk)).map
      (put position false (data.take format.chunk) ++ ·) := by
  rw [sealed, if_neg (not_le.2 h), if_neg hcap]

lemma sealed_full (h : format.chunk < data.length) (hcap : position = format.cap) :
    format.sealed put position data = none := by
  rw [sealed, if_neg (not_le.2 h), if_pos hcap]

lemma chunks_last (h : data.length ≤ format.chunk) :
    format.chunks position data = [(position, true, data)] := by
  rw [chunks, if_pos h]

lemma chunks_next (h : format.chunk < data.length) :
    format.chunks position data = (position, false, data.take format.chunk) ::
      format.chunks (position + 1) (data.drop format.chunk) := by
  rw [chunks, if_neg (not_le.2 h)]

lemma le_of_mem_chunks {x : ℕ × Bool × List α} (hx : x ∈ format.chunks position data) :
    position ≤ x.1 := by
  induction position, data using chunks.induct format with
  | case1 position data h =>
    rw [chunks_last h, List.mem_singleton] at hx
    rw [hx]
  | case2 position data h ih =>
    rw [chunks_next (not_le.1 h), List.mem_cons] at hx
    rcases hx with rfl | hx
    · exact le_rfl
    · exact (Nat.le_succ position).trans (ih hx)

lemma exists_sealed (hroom : data.length ≤ (format.cap - position + 1) * format.chunk)
    (hposition : position ≤ format.cap) : ∃ body, format.sealed put position data = some body := by
  induction position, data using chunks.induct format with
  | case1 position data h => exact ⟨_, sealed_last h⟩
  | case2 position data h ih =>
    have hlt : position < format.cap := by
      by_contra hcap
      have hzero : format.cap - position = 0 := by omega
      rw [hzero, Nat.zero_add, Nat.one_mul] at hroom
      exact h hroom
    have hrest : (data.drop format.chunk).length ≤
        (format.cap - (position + 1) + 1) * format.chunk := by
      rw [List.length_drop, Nat.sub_le_iff_le_add]
      refine hroom.trans ?_
      have hcount : format.cap - position + 1 = format.cap - (position + 1) + 1 + 1 := by omega
      rw [hcount, Nat.add_mul _ 1, Nat.one_mul]
    obtain ⟨body, hbody⟩ := ih hrest hlt
    refine ⟨put position false (data.take format.chunk) ++ body, ?_⟩
    rw [sealed_next (not_le.1 h) hlt.ne, hbody, Option.map_some]

section Opening

lemma block_pos : 0 < format.block := Nat.add_pos_left format.chunk_pos _

lemma opened_last (hne : body ≠ []) (h : body.length ≤ format.block) {message : List α}
    (hget : get position true body = some message) :
    format.opened get position body = (message, true) := by
  rw [opened, if_neg hne, if_pos h, hget]

lemma opened_next (h : format.block < body.length) (hcap : position ≠ format.cap)
    {message : List α} (hget : get position false (body.take format.block) = some message) :
    format.opened get position body =
      (message ++ (format.opened get (position + 1) (body.drop format.block)).1,
        (format.opened get (position + 1) (body.drop format.block)).2) := by
  have hne : body ≠ [] := List.ne_nil_of_length_pos (block_pos.trans h)
  rw [opened, if_neg hne, if_neg (not_le.2 h), if_neg hcap, hget]

/-- Where a block opens only as a chunk that was sealed, what opens is the start of the data that
was sealed, and a body that opens to its end is the sealed one. -/
theorem opened_prefix
    (hget : ∀ x ∈ format.chunks position data,
      get x.1 x.2.1 (put x.1 x.2.1 x.2.2) = some x.2.2)
    (honly : ∀ i last block message, position ≤ i → get i last block = some message →
      ∃ m, (i, last, m) ∈ format.chunks position data ∧ block = put i last m) :
    (format.opened get position body).1 <+: data ∧
      ((format.opened get position body).2 = true →
        format.sealed put position data = some body) := by
  induction position, data using chunks.induct format generalizing body with
  | case1 position data hle =>
    rw [chunks_last hle] at hget honly
    rw [opened]
    split
    · exact ⟨List.nil_prefix, fun h => by cases h⟩
    · split
      · split
        · next message hmessage =>
          obtain ⟨m, hmem, rfl⟩ := honly position true body message le_rfl hmessage
          obtain rfl : m = data := by simpa using hmem
          rw [hget _ (List.mem_singleton_self _)] at hmessage
          cases hmessage
          exact ⟨List.prefix_rfl, fun _ => sealed_last hle⟩
        · exact ⟨List.nil_prefix, fun h => by cases h⟩
      · split
        · exact ⟨List.nil_prefix, fun h => by cases h⟩
        · split
          · next message hmessage =>
            -- The only chunk is the last one.
            obtain ⟨m, hmem, -⟩ := honly position false _ message le_rfl hmessage
            simp at hmem
          · exact ⟨List.nil_prefix, fun h => by cases h⟩
  | case2 position data hle ih =>
    have hchunks := @chunks_next _ format position _ (not_le.1 hle)
    have hhead : ∀ last m, (position, last, m) ∈ format.chunks position data →
        last = false ∧ m = data.take format.chunk := by
      intro last m hmem
      rw [hchunks] at hmem
      rcases List.mem_cons.1 hmem with heq | hmem
      · cases heq
        exact ⟨rfl, rfl⟩
      · exact absurd (le_of_mem_chunks hmem) (Nat.not_succ_le_self position)
    rw [opened]
    split
    · exact ⟨List.nil_prefix, fun h => by cases h⟩
    · split
      · split
        · next message hmessage =>
          obtain ⟨m, hmem, -⟩ := honly position true body message le_rfl hmessage
          cases (hhead true m hmem).1
        · exact ⟨List.nil_prefix, fun h => by cases h⟩
      · split
        · exact ⟨List.nil_prefix, fun h => by cases h⟩
        · next hcap =>
          split
          · next message hmessage =>
            obtain ⟨m, hmem, hblock⟩ := honly position false _ message le_rfl hmessage
            obtain ⟨-, rfl⟩ := hhead false m hmem
            have hfirst := hget _ hmem
            rw [← hblock, hmessage] at hfirst
            cases hfirst
            obtain ⟨ hprefix, hend⟩ := @ih (body.drop format.block)
              (fun x hx => hget x (by rw [hchunks]; exact List.mem_cons_of_mem _ hx))
              (fun i last block message hi hopen => by
                obtain ⟨m, hmem, hblock⟩ := honly i last block message (Nat.le_of_succ_le hi) hopen
                rw [hchunks] at hmem
                rcases List.mem_cons.1 hmem with heq | hmem
                · cases heq
                  exact absurd hi (Nat.not_succ_le_self position)
                · exact ⟨m, hmem, hblock⟩)
            constructor
            · obtain ⟨more, hmore⟩ := hprefix
              refine ⟨more, ?_⟩
              rw [List.append_assoc, hmore, List.take_append_drop]
            · intro hok
              rw [sealed_next (not_le.1 hle) hcap, hend hok, Option.map_some, ← hblock,
                List.take_append_drop]
          · exact ⟨List.nil_prefix, fun h => by cases h⟩

variable
  (hlength : ∀ position last (message : List α),
    (put position last message).length = message.length + format.tag)

include hlength

lemma length_sealed (h : format.sealed put position data = some body) :
    data.length + format.tag ≤ body.length := by
  induction position, data using chunks.induct format generalizing body with
  | case1 position data hle =>
    rw [sealed_last hle] at h
    cases h
    rw [hlength]
  | case2 position data hle ih =>
    rw [sealed, if_neg hle] at h
    split at h
    · cases h
    · obtain ⟨rest, hrest, rfl⟩ := Option.map_eq_some_iff.1 h
      have hbody := ih hrest
      rw [List.length_drop] at hbody
      rw [List.length_append, hlength, List.length_take]
      omega

theorem opened_sealed (htag : 0 < format.tag) (h : format.sealed put position data = some body)
    (hget : ∀ x ∈ format.chunks position data,
      get x.1 x.2.1 (put x.1 x.2.1 x.2.2) = some x.2.2) :
    format.opened get position body = (data, true) := by
  induction position, data using chunks.induct format generalizing body with
  | case1 position data hle =>
    rw [sealed_last hle] at h
    cases h
    rw [chunks_last hle] at hget
    refine opened_last (List.ne_nil_of_length_pos ?_) ?_ (hget _ (List.mem_singleton_self _))
    · rw [hlength]
      omega
    · rw [hlength, block]
      omega
  | case2 position data hle ih =>
    rw [chunks_next (not_le.1 hle)] at hget
    rw [sealed, if_neg hle] at h
    split at h
    · cases h
    · next hcap =>
      obtain ⟨rest, hrest, rfl⟩ := Option.map_eq_some_iff.1 h
      have hfirst : (put position false (data.take format.chunk)).length = format.block := by
        rw [hlength, List.length_take, block]
        omega
      have hbody := length_sealed hlength hrest
      have hlong : format.block <
          (put position false (data.take format.chunk) ++ rest).length := by
        rw [List.length_append, hfirst]
        omega
      rw [@opened_next _ _ _ _ _ _ hlong hcap (data.take format.chunk), List.drop_left' hfirst,
        ih hrest fun x hx => hget x (List.mem_cons_of_mem _ hx), List.take_append_drop]
      rw [List.take_left' hfirst]
      exact hget _ List.mem_cons_self

end Opening

end Format

end Irori.Stream

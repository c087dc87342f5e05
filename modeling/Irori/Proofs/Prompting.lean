import Irori.Proofs.Holding

/-!
# What is due comes before what happens

What the engine is told while no timer is due does what it does once the engine has caught up. The
engine that is told of a change while a hold is due lets the hold go instead of firing.
-/

namespace Irori.Proofs

open Irori

def isEvent : Op → Bool
  | .fire .. | .stateChanged .. | .resync .. | .callFinished .. => true
  | _ => false

/-- What comes of an operation once the engine has caught up to `now`. -/
def performAfter (env : Env) (op : Op) (now : Timestamp) (e : Engine) (fuel : Nat) :
    Option Engine :=
  (e.advance env now fuel).bind fun e => op.perform env e fuel

/-- Nothing is due where the engine is told of something. -/
def Prompt (op : Op) (e : Engine) : Prop :=
  isEvent op = true → ∀ now ∈ op.time, ∀ entry ∈ e.timers, now < entry.1

/-- The operations, with the engine caught up before it is told of anything. -/
def caughtUp (ops : List Op) : List Op :=
  ops.flatMap fun op => (if isEvent op then op.time.toList.map .advance else []) ++ [op]

variable {env : Env} {e : Engine}

lemma advance_idle {now : Timestamp} (h : ∀ entry ∈ e.timers, now < entry.1) (fuel : Nat) :
    e.advance env now (fuel + 1) = some e := by
  rw [Engine.advance]
  cases htimers : e.timers with
  | nil => rfl
  | cons entry rest =>
    have hlater : now < entry.1 := h entry (htimers ▸ List.mem_cons_self)
    exact if_pos hlater

lemma reaches_caughtUp {ops : List Op} (h : ReachesWith env Prompt ops e) :
    Reaches env (caughtUp ops) e := by
  induction h with
  | new dry => exact .new dry
  | @perform ops e e' op fuel _ hprompt returned ih =>
    have hops : caughtUp (ops ++ [op]) = caughtUp ops ++
        (if isEvent op then op.time.toList.map .advance else []) ++ [op] := by
      simp [caughtUp]
    rw [hops]
    refine Reaches.perform ?_ returned
    split
    · next hevent =>
      cases htime : op.time with
      | none => simpa using ih
      | some now =>
        have hcaught : (Op.advance now).perform env _ 1 = some _ :=
          advance_idle (hprompt hevent now htime) 0
        exact ih.perform hcaught
    · simpa using ih

def stillness (now : Timestamp) : Op :=
  .stateChanged (some (Sample.reported Sample.motion (.bool true) .available))
    (Sample.reported Sample.motion (.bool false) .available) now

end Irori.Proofs

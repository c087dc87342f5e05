import Irori.Lib.Map

/-!
# Tries at passwords

Each try is counted before the password is looked at, per person and per machine it comes from, and
what was counted is forgotten once the password was right. Where the count is full, whoever has been
quiet for long enough is forgotten to make room.
-/

namespace Irori.Server

structure Attempts where
  failed : ℕ
  /-- In nanoseconds. -/
  last : ℕ
  deriving DecidableEq

namespace Attempts

/-- How many wrong passwords in a row before the next try has to wait. -/
def tries : ℕ := 5

def lockout : ℕ := 30 * 10 ^ 9

def maxTriers : ℕ := 1024

def forgetAfter : ℕ := 10 * 60 * 10 ^ 9

variable {τ : Type} [LinearOrder τ]

def recent (attempts : Map τ Attempts) (now : ℕ) : Map τ Attempts :=
  attempts.filter fun _ tries => decide (now - tries.last < forgetAfter)

def tryNow (attempts : Map τ Attempts) (who : τ) (now : ℕ) : Map τ Attempts × Except ℕ Unit :=
  match attempts[who]? with
  | some kept =>
    if tries ≤ kept.failed then
      if now - kept.last ≤ lockout then (attempts, .error (lockout - (now - kept.last)))
      else (attempts.insert who ⟨1, now⟩, .ok ())
    else (attempts.insert who ⟨kept.failed + 1, now⟩, .ok ())
  | none =>
    if maxTriers ≤ attempts.size then
      if maxTriers ≤ (recent attempts now).size then (recent attempts now, .error lockout)
      else ((recent attempts now).insert who ⟨1, now⟩, .ok ())
    else (attempts.insert who ⟨1, now⟩, .ok ())

def gotIn (attempts : Map τ Attempts) (who : τ) : Map τ Attempts := attempts.erase who

inductive Call (τ : Type)
  | tryNow (who : τ)
  | gotIn (who : τ)
  deriving DecidableEq

def step (attempts : Map τ Attempts) : ℕ × Call τ → Map τ Attempts
  | (now, .tryNow who) => (tryNow attempts who now).1
  | (_, .gotIn who) => gotIn attempts who

def after (calls : List (ℕ × Call τ)) (n : ℕ) : Map τ Attempts := (calls.take n).foldl step ∅

end Attempts

end Irori.Server

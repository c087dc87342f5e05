import Irori.Recorder.Store

/-!
# The recorder's writer

One thread owns the tables. Everyone else sends it jobs, which wait in a queue and are applied in the
order they were sent. Changes are collected in a batch that is written in one transaction, and kept
when that fails.
-/

namespace Irori.Recorder

variable {σ : Type}

structure Change (σ : Type) where
  state : Core.EntityState σ
  kind : Option StateClass

inductive Job (σ : Type)
  | append (change : Change σ)
  | forget (id : EntityId)
  | forgetMissing (live : List EntityId)
  | notice (id : EntityId) (kind : StateClass)
  | query (id : EntityId) (since : Timestamp)
  | summaries (id : EntityId) (since : Timestamp)
  | configure (retention : Retention)
  | check
  /-- Rewrite what is stored for this entity, once. -/
  | convert (id : EntityId) (fromUnit : String) (scale offset : ℚ) (before : Timestamp)

structure Luck where
  clock : Timestamp
  writes : Bool
  deletes : Nat
  commits : Bool
  fails : EntityId → Bool

/-- Closed periods summarized on one ordinary turn, and before answering a summary read. -/
def compileBudget : Nat := 64
def summaryBudget : Nat := 4096

structure Writer (σ : Type) where
  store : Store σ
  batch : List (Change σ)
  lastWriteOk : Bool
  retention : Retention

/-- Changes stored, and their entities remembered to be summarized. -/
def insertMany (store : Store σ) (changes : List (Change σ)) (clock : Timestamp) : Store σ :=
  let store := changes.foldl (fun store change => store.append change.state) store
  match nanos clock with
  | none => store
  | some now =>
    changes.foldl (fun store change =>
      match change.kind with
      | some kind => store.noteClass change.state.entityId kind now
      | none => store) store

namespace Writer

variable (writer : Writer σ)

/-- The batch is kept when it can't be written: the next turn tries it again. -/
def writeBatch (luck : Luck) : Writer σ :=
  if writer.batch.isEmpty then writer
  else if luck.writes then
    { writer with
      store := insertMany writer.store writer.batch luck.clock
      batch := []
      lastWriteOk := true }
  else { writer with lastWriteOk := false }

def noteWrite (store : Store σ) (ok : Bool) : Writer σ := { writer with store, lastWriteOk := ok }

section

variable (numbers : Numbers σ)

/-- Closed periods summarized. A success doesn't hide a batch that waits to be tried again. -/
def noteCompile (budget : Nat) (only : Option EntityId) (luck : Luck) : Writer σ :=
  match nanos luck.clock with
  | none => writer
  | some now =>
    let (store, ok) := compile numbers writer.store budget only now luck.fails
    { writer with
      store
      lastWriteOk := if ok then writer.batch.isEmpty || writer.lastWriteOk else false }

def notePrune (luck : Luck) : Writer σ :=
  if luck.commits then
    { writer with
      store := writer.store.prune writer.retention luck.clock
      lastWriteOk := writer.batch.isEmpty || writer.lastWriteOk }
  else { writer with lastWriteOk := false }

/-- One job applied: the writer after it, and whether its own write went through. -/
def apply (luck : Luck) : Job σ → Writer σ × Bool
  | .append change => ({ writer with batch := writer.batch ++ [change] }, true)
  | .notice id kind =>
    match nanos luck.clock with
    | none => (writer, true)
    | some now =>
      if luck.commits then (writer.noteWrite (writer.store.noteClass id kind now) true, true)
      else (writer.noteWrite writer.store false, false)
  | .forget id =>
    -- Dropped from the batch too: writing it later would put the entity back.
    let batch := writer.batch.filter fun change => change.state.entityId != id
    let writer := { writer with batch }.writeBatch luck
    let ok := decide (5 ≤ luck.deletes)
    (writer.noteWrite (writer.store.forget id luck.deletes) ok, ok)
  | .forgetMissing live =>
    let batch := writer.batch.filter fun change => live.contains change.state.entityId
    let writer := { writer with batch }.writeBatch luck
    let ok := decide (4 ≤ luck.deletes)
    (writer.noteWrite (writer.store.forgetMissing live luck.deletes) ok, ok)
  | .convert id fromUnit scale offset before =>
    let writer := writer.writeBatch luck
    match nanos before with
    | none => (writer.noteWrite writer.store false, false)
    | some before =>
      if luck.commits then
        (writer.noteWrite
          (writer.store.convertOnce numbers id fromUnit scale offset before) true, true)
      else (writer.noteWrite writer.store false, false)
  | .query _ _ => (writer.writeBatch luck, true)
  | .summaries id _ => ((writer.writeBatch luck).noteCompile numbers summaryBudget (some id) luck, true)
  | .configure retention =>
    let writer := { writer with retention }.writeBatch luck
    ((writer.noteCompile numbers summaryBudget none luck).notePrune luck, true)
  | .check => (writer, true)

end

end Writer

/-- Saves waiting on the writer. Past this, new changes are dropped. -/
def queueLimit : Nat := 1024

def burstLimit : Nat := 64

structure Mailbox (σ : Type) where
  jobs : List (Job σ)
  /-- Changes among the jobs. Other jobs do not count. -/
  appends : Nat

def Job.isAppend : Job σ → Bool
  | .append _ => true
  | _ => false

def Mailbox.send (mailbox : Mailbox σ) (job : Job σ) : Mailbox σ :=
  if job.isAppend then
    if queueLimit ≤ mailbox.appends then mailbox
    else ⟨mailbox.jobs ++ [job], mailbox.appends + 1⟩
  else { mailbox with jobs := mailbox.jobs ++ [job] }

def Mailbox.recvBurst (mailbox : Mailbox σ) : List (Job σ) × Mailbox σ :=
  let taken := mailbox.jobs.take burstLimit
  (taken, ⟨mailbox.jobs.drop burstLimit, mailbox.appends - (taken.filter Job.isAppend).length⟩)

structure Diary (σ : Type) where
  mailbox : Mailbox σ
  writer : Writer σ

inductive Happening (σ : Type)
  | send (job : Job σ)
  | burst (lucks : Nat → Luck)
  | write (luck : Luck)
  | compile (budget : Nat) (only : Option EntityId) (luck : Luck)
  | prune (luck : Luck)

structure Due where
  compile : Bool
  prune : Bool

def turn (due : Due) (luck : Fin 4 → Luck) (lucks : Nat → Luck) : List (Happening σ) :=
  (if due.compile then [.write (luck 0), .compile compileBudget none (luck 1)] else []) ++
  (if due.prune then [.write (luck 2), .prune (luck 2)] else [.write (luck 2)]) ++
  [.burst lucks, .write (luck 3)]

def Writer.applyAll (numbers : Numbers σ) : List (Job σ × Luck) → Writer σ → Writer σ
  | [], writer => writer
  | (job, luck) :: rest, writer => applyAll numbers rest (writer.apply numbers luck job).1

def Diary.after (numbers : Numbers σ) (diary : Diary σ) : Happening σ → Diary σ
  | .send job => { diary with mailbox := diary.mailbox.send job }
  | .burst lucks =>
    let (taken, mailbox) := diary.mailbox.recvBurst
    ⟨mailbox, diary.writer.applyAll numbers (taken.zipIdx.map fun (job, i) => (job, lucks i))⟩
  | .write luck => { diary with writer := diary.writer.writeBatch luck }
  | .compile budget only luck =>
    { diary with writer := diary.writer.noteCompile numbers budget only luck }
  | .prune luck => { diary with writer := diary.writer.notePrune luck }

end Irori.Recorder

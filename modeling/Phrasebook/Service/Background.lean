import Phrasebook.Service

/-!
# Background work

A desk is a phrase book with a loader and a saver behind it. Tasks run one after the other in the
order in which they were started, each to its end or until it waits for a permit of a gate; a task
that is given a permit moves to the end of the order. Nothing runs until the desk is told to settle.
-/

namespace Phrasebook

/-- A loader that answers from a table, after failing a number of times. With a gate every load
needs a permit. -/
structure LoadWorker where
  table : List ((String × String) × Catalog) := []
  failures : Nat := 0
  permits : Option Nat := none

structure SavedText where
  locale : String
  space : String
  name : String
  text : String
  deriving DecidableEq, Repr

/-- A saver that keeps what it is handed, or only reports it, after failing a number of times. With
a gate every save needs a permit. -/
structure SaveWorker where
  keeps : Bool := true
  saved : List SavedText := []
  failures : Nat := 0
  permits : Option Nat := none

inductive Worker where
  | loader
  | saver
  deriving DecidableEq, Repr

def Job.worker : Job → Worker
  | .load _ _ => .loader
  | .save _ _ _ _ => .saver

/-- The event of a worker being asked to do a job. -/
def Job.event : Job → Event
  | .load locale space => .loaderAsked locale space
  | .save locale space name text => .saverAsked locale space name text

namespace LoadWorker

/-- Puts a catalog into the table in place of the one for the same namespace. -/
def insert (w : LoadWorker) (locale space : String) (c : Catalog) : LoadWorker :=
  { w with table := ((locale, space), c) :: w.table.filter (·.1 != (locale, space)) }

def contains (w : LoadWorker) (locale space : String) : Bool :=
  w.table.any (·.1 == (locale, space))

/-- Does a load: a failure while there are failures left, and otherwise what the table has. -/
def run (w : LoadWorker) (locale space : String) : LoadResult × LoadWorker :=
  match w.failures with
  | n + 1 => (.failed, { w with failures := n })
  | 0 =>
    match w.table.lookup (locale, space) with
    | some c => (.found c, w)
    | none => (.absent, w)

end LoadWorker

/-- Does a save: a failure while there are failures left, and otherwise the text is kept. -/
def SaveWorker.run (w : SaveWorker) (entry : SavedText) : SaveResult × SaveWorker :=
  match w.failures with
  | n + 1 => (.failed, { w with failures := n })
  | 0 => (.saved, if w.keeps then { w with saved := w.saved ++ [entry] } else w)

def SaveWorker.drain (w : SaveWorker) : List SavedText × SaveWorker :=
  (w.saved, { w with saved := [] })

structure Desk where
  service : Service
  loader : Option LoadWorker := none
  saver : Option SaveWorker := none

namespace Desk

/-- The permits left at a worker's gate; `none` without a gate. -/
def permits (d : Desk) : Worker → Option Nat
  | .loader => d.loader.bind (·.permits)
  | .saver => d.saver.bind (·.permits)

def setPermits (d : Desk) (w : Worker) (n : Nat) : Desk :=
  match w with
  | .loader => { d with loader := d.loader.map fun l => { l with permits := some n } }
  | .saver => { d with saver := d.saver.map fun s => { s with permits := some n } }

def mapTasks (d : Desk) (f : List Task → List Task) : Desk :=
  { d with service := Service.mapEngine d.service fun e => { e with tasks := f e.tasks } }

def complete (answer : Handler Engine) (d : Desk) : Job → Desk
  | .load locale space =>
    match d.loader with
    | none => { d with service := Service.finishLoad answer locale space .absent d.service }
    | some w =>
      let (r, w) := w.run locale space
      { d with
        loader := some w
        service := Service.finishLoad answer locale space r d.service }
  | .save locale space name text =>
    match d.saver with
    | none => { d with service := Service.finishSave locale space name text .failed d.service }
    | some w =>
      let (r, w) := w.run ⟨locale, space, name, text⟩
      { d with
        saver := some w
        service := Service.finishSave locale space name text r d.service }

def setState (index : Nat) (state : TaskState) (ts : List Task) : List Task :=
  ts.modify index fun t => { t with state }

/-- Runs the first task that does not wait, to its end or up to a gate without permits. -/
def step? (answer : Handler Engine) (d : Desk) : Option Desk :=
  let tasks := d.service.engine.tasks
  (tasks.findIdx? (·.state != .waiting)).bind fun index =>
    tasks[index]?.map fun t =>
      match t.state with
      | .admitted => d.complete answer t.job
      | _ =>
        let d := { d with service := d.service.log t.job.event }
        match d.permits t.job.worker with
        | none => d.complete answer t.job
        | some (n + 1) => (d.setPermits t.job.worker n).complete answer t.job
        | some 0 => d.mapTasks (setState index .waiting)

/-- Runs tasks until each is finished or waits; at most `fuel` of them. -/
def settle (answer : Handler Engine) : Nat → Desk → Desk
  | 0, d => d
  | fuel + 1, d =>
    match d.step? answer with
    | some d => settle answer fuel d
    | none => d

def waitsFor (w : Worker) (t : Task) : Bool :=
  t.state == .waiting && t.job.worker == w

/-- Gives a permit to the first task that waits for it, and moves the task to the end. -/
def grantFirst (w : Worker) (ts : List Task) : List Task :=
  match ts.find? (waitsFor w) with
  | some t => ts.eraseP (waitsFor w) ++ [{ t with state := .admitted }]
  | none => ts

def grant (w : Worker) : Nat → List Task → List Task
  | 0, ts => ts
  | n + 1, ts => grant w n (grantFirst w ts)

/-- Adds permits to a gate: tasks that wait get them first, the others remain. Without such a gate
nothing changes. -/
def release (w : Worker) (n : Nat) (d : Desk) : Desk :=
  match d.permits w with
  | none => d
  | some left =>
    let served := min n (d.service.engine.tasks.countP (waitsFor w))
    (d.setPermits w (left + (n - served))).mapTasks (grant w served)

def plenty : Nat := 1000000

def waitIdle (answer : Handler Engine) (fuel : Nat) (d : Desk) : Desk :=
  settle answer fuel ((d.release .loader plenty).release .saver plenty)

/-- Changes the phrase book and gives what the change answers. -/
def act {α : Type} (d : Desk) (f : Service → α × Service) : α × Desk :=
  let (a, s) := f d.service
  (a, { d with service := s })

end Desk

end Phrasebook

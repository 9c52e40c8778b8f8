import Mathlib.Data.List.Basic

/-!
# Background tasks

`BackgroundTask` runs a function again and again on a thread of its own. What its mutex protects happens
in one step; between two steps any other thread may run. A call of `Stop` gives the mutex up before it
notifies the worker and joins its thread.
-/

namespace RenderStudioKit

/-- Where a worker stands in `Run`: before `IsRunning`, in the task, before it locks the mutex to wait,
blocked on the condition, about to lock the mutex again, or at the end. -/
inductive WorkerStage where
  | isRunning
  | task
  | wait
  | waiting
  | woken (timeout : Bool)
  | finished
deriving DecidableEq

namespace WorkerStage

/-- The next stage of a worker. `wait_for` looks at `mRunning` before it waits and whenever it is woken,
and waits again if it was woken without a reason. -/
def next (mRunning : Bool) : WorkerStage → WorkerStage
  | .isRunning => if mRunning then .task else .finished
  | .task => .wait
  | .wait => if mRunning then .waiting else .isRunning
  | .waiting => .waiting
  | .woken timeout => if mRunning && !timeout then .waiting else .isRunning
  | .finished => .finished

def wake (timeout : Bool) : WorkerStage → WorkerStage
  | .waiting => .woken timeout
  | stage => stage

end WorkerStage

/-- What a call of `Stop` still has to do. -/
inductive StopStage where
  | notify
  | join
deriving DecidableEq

/-- `workers` are the threads that were started, `mThread` is the position of the one that can be joined,
and `stops` are the calls of `Stop` under way. -/
structure BackgroundTask where
  mRunning : Bool := false
  mThread : Option Nat := none
  workers : List WorkerStage := []
  stops : List StopStage := []
  terminated : Bool := false

/-- `start` and `stop` are calls by any thread; `notify` and `join` continue the call of `Stop` at a
position, `run` continues a worker, and `wake` ends the wait of one. -/
inductive TaskEvent where
  | start
  | stop
  | notify (i : Nat)
  | join (i : Nat)
  | run (worker : Nat)
  | wake (worker : Nat) (timeout : Bool)
deriving DecidableEq

namespace BackgroundTask

/-- A thread that is assigned to one that can be joined ends the process. -/
def start (t : BackgroundTask) : BackgroundTask :=
  if t.mRunning then t
  else if t.mThread.isSome then { t with mRunning := true, terminated := true }
  else { t with
    mRunning := true
    mThread := some t.workers.length
    workers := t.workers ++ [.isRunning] }

def stop (t : BackgroundTask) : BackgroundTask :=
  if !t.mRunning then t
  else { t with mRunning := false, stops := t.stops ++ [.notify] }

/-- `notify_one` wakes one of those that wait. -/
def notifyOne (workers : List WorkerStage) : List WorkerStage :=
  match workers.findIdx? (· = .waiting) with
  | none => workers
  | some worker => workers.set worker (.woken false)

def notify (t : BackgroundTask) (i : Nat) : BackgroundTask :=
  match t.stops[i]? with
  | some .notify => { t with workers := notifyOne t.workers, stops := t.stops.set i .join }
  | _ => t

/-- `join` blocks until the worker has finished. -/
def join (t : BackgroundTask) (i : Nat) : BackgroundTask :=
  match t.stops[i]? with
  | some .join =>
    match t.mThread with
    | none => { t with stops := t.stops.eraseIdx i }
    | some worker =>
      if t.workers[worker]? = some .finished then
        { t with mThread := none, stops := t.stops.eraseIdx i }
      else t
  | _ => t

def act (t : BackgroundTask) : TaskEvent → BackgroundTask
  | .start => t.start
  | .stop => t.stop
  | .notify i => t.notify i
  | .join i => t.join i
  | .run worker => { t with workers := t.workers.modify worker (WorkerStage.next t.mRunning) }
  | .wake worker timeout => { t with workers := t.workers.modify worker (WorkerStage.wake timeout) }

/-- Nothing happens after the end of the process. -/
def perform (t : BackgroundTask) (event : TaskEvent) : BackgroundTask :=
  if t.terminated then t else t.act event

end BackgroundTask

end RenderStudioKit

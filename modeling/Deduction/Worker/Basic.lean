import Deduction.Number.Decimal
import Deduction.Validation.Basic

/-!
The worker: validations on a pool of threads, each falling back to the caller's own thread when
the pool cannot deliver.

A pool that was closed takes no more tasks; a worker that was closed has given up its pool, and a
pool may be closed without the worker knowing. A task that a pool takes is answered, or the caller
gives up waiting for it, and it is then still queued or hangs on its thread. A thread that hangs
stays busy until the worker is shut down.
-/

namespace Deduction

structure Pool where
  size : Nat
  busy : Nat := 0
  stalling : Bool := false
  closed : Bool := false
  deriving DecidableEq, Repr

/-- A worker; without a pool when it is disabled or was shut down. -/
structure Worker where
  policy : Policy
  pool : Option Pool
  closed : Bool := false
  deriving DecidableEq, Repr

abbrev Answer := Except UnknownRuleset Validation

/-- What a caller who waits for a task gets. -/
inductive Delivery
  | answered (answer : Answer)
  | queued
  | hanging

/-- Why a document was validated on the caller's thread. -/
inductive Fallback
  | refused
  | queued (timeout : Binary64)
  | hanging (timeout : Binary64)
  deriving DecidableEq, Repr

def Fallback.message : Fallback → String
  | .refused =>
      "Worker rejected proof (cannot schedule new futures after shutdown); validating in-process"
  | .queued timeout =>
      "Worker timed out after " ++ timeout.textOnePlace ++ "s; validating in-process"
  | .hanging timeout =>
      "Worker timed out after " ++ timeout.textOnePlace ++
        "s (task still running on pool); validating in-process"

/-- A way for pools to deal with tasks and with callers who wait for them so long.

Only closed pools refuse a task. A caller who waits gets a delivery: the task yields, or the time
runs out. Pools that fail for some times to wait, as for infinite ones or ones too large for a
clock, are no schedules. A task that is answered is answered by what it comes to, and taking a task
neither closes a pool nor opens one. -/
structure Schedule where
  submit : Pool → Binary64 → Answer → Option (Option Delivery × Pool)
  submit_eq_none_iff (pool : Pool) (wait : Binary64) (task : Answer) :
    submit pool wait task = none ↔ pool.closed = true
  yields_or_times_out {pool next : Pool} {wait : Binary64} {task : Answer}
    {waiting : Option Delivery} :
    submit pool wait task = some (waiting, next) → waiting.isSome = true
  answer_eq {pool next : Pool} {wait : Binary64} {task answer : Answer} :
    submit pool wait task = some (some (.answered answer), next) → answer = task
  closed_eq {pool next : Pool} {wait : Binary64} {task : Answer} {waiting : Option Delivery} :
    submit pool wait task = some (waiting, next) → next.closed = pool.closed

namespace Schedule

/-- What a caller gets who submits a task and waits so long for it, unless the task is refused. -/
def deliver (schedule : Schedule) (pool : Pool) (wait : Binary64) (task : Answer) :
    Option (Delivery × Pool) :=
  match hsubmit : schedule.submit pool wait task with
  | none => none
  | some (waiting, next) => some (waiting.get (schedule.yields_or_times_out hsubmit), next)

variable {schedule : Schedule} {pool next : Pool} {wait : Binary64} {task : Answer}

theorem deliver_eq_none_iff : schedule.deliver pool wait task = none ↔ pool.closed = true := by
  rw [← schedule.submit_eq_none_iff pool wait task]
  unfold deliver
  split
  · rename_i hsubmit
    simp [hsubmit]
  · rename_i hsubmit
    simp [hsubmit]

theorem deliver_eq_some_iff {delivery : Delivery} :
    schedule.deliver pool wait task = some (delivery, next) ↔
      schedule.submit pool wait task = some (some delivery, next) := by
  unfold deliver
  split
  · rename_i hsubmit
    simp [hsubmit]
  · rename_i waiting next' hsubmit
    obtain ⟨found, rfl⟩ := Option.isSome_iff_exists.mp (schedule.yields_or_times_out hsubmit)
    simp [hsubmit]

end Schedule

/-- Submits a task to a pool, whose free threads answer at once unless they hang. A task that hangs
takes its thread away. -/
def Pool.submit (pool : Pool) (task : Answer) : Option (Delivery × Pool) :=
  if pool.closed then none
  else if pool.size ≤ pool.busy then some (.queued, pool)
  else if pool.stalling then some (.hanging, { pool with busy := pool.busy + 1 })
  else some (.answered task, pool)

theorem Pool.submit_of_closed {pool : Pool} (hclosed : pool.closed = true) (task : Answer) :
    pool.submit task = none :=
  if_pos hclosed

theorem Pool.submit_of_open {pool : Pool} (hopen : pool.closed = false) (task : Answer) :
    ∃ delivery busy, pool.submit task = some (delivery, { pool with busy }) ∧
      ∀ answer, delivery = .answered answer → answer = task := by
  rw [submit, if_neg (by simp [hopen])]
  split
  · exact ⟨.queued, pool.busy, rfl, by simp⟩
  · split
    · exact ⟨.hanging, pool.busy + 1, rfl, by simp⟩
    · exact ⟨.answered task, pool.busy, rfl, by simp⟩

/-- The task is answered at once where a thread is free and does not hang. Otherwise the time runs
out, however long it is. -/
def Schedule.prompt : Schedule where
  submit pool _ task := (pool.submit task).map fun taken => (some taken.1, taken.2)
  submit_eq_none_iff pool wait task := by
    cases hclosed : pool.closed with
    | true => simp [Pool.submit_of_closed hclosed]
    | false =>
        obtain ⟨delivery, busy, hsubmit, -⟩ := Pool.submit_of_open hclosed task
        simp [hsubmit]
  yields_or_times_out {pool next wait task waiting} hsubmit := by
    obtain ⟨taken, -, hwaiting⟩ := Option.map_eq_some_iff.mp hsubmit
    rw [← (Prod.mk.inj hwaiting).1]
    rfl
  answer_eq {pool next wait task answer} hsubmit := by
    cases hclosed : pool.closed with
    | true => simp [Pool.submit_of_closed hclosed] at hsubmit
    | false =>
        obtain ⟨delivery, busy, hsubmit', hanswer⟩ := Pool.submit_of_open hclosed task
        rw [hsubmit', Option.map_some, Option.some.injEq, Prod.mk.injEq, Option.some.injEq]
          at hsubmit
        exact hanswer answer hsubmit.1
  closed_eq {pool next wait task waiting} hsubmit := by
    cases hclosed : pool.closed with
    | true => simp [Pool.submit_of_closed hclosed] at hsubmit
    | false =>
        obtain ⟨_, busy, hsubmit', -⟩ := Pool.submit_of_open hclosed task
        rw [hsubmit', Option.map_some, Option.some.injEq, Prod.mk.injEq] at hsubmit
        rw [← hsubmit.2, ← hclosed]

namespace Worker

def start (policy : Policy) : Worker :=
  { policy
    pool := if policy.workerEnabled then some { size := policy.maxWorkers } else none }

/-- The worker has a pool and was not shut down. -/
def isActive (worker : Worker) : Bool :=
  worker.pool.isSome && !worker.closed

/-- Closes the worker and gives up its pool. -/
def shutDown (worker : Worker) : Worker :=
  if worker.closed then worker
  else { worker with closed := true, pool := none }

def block (worker : Worker) : Worker :=
  { worker with pool := worker.pool.map fun pool => { pool with busy := pool.size } }

/-- Lets validations hang on their threads from now on. -/
def stall (worker : Worker) : Worker :=
  { worker with pool := worker.pool.map fun pool => { pool with stalling := true } }

/-- Closes the pool behind the worker's back. -/
def breakPool (worker : Worker) : Worker :=
  { worker with pool := worker.pool.map fun pool => { pool with closed := true } }

/-- A validation with the fallbacks on the way to it. -/
structure Run where
  validation : Validation
  fallbacks : List Fallback

/-- The fallback on the way to a validation. -/
def Run.fallback (run : Run) : Option Fallback :=
  run.fallbacks.head?

/-- Validates a document on the caller's thread after the given fallbacks. -/
def runHere (worker : Worker) (document : Document) (fallbacks : List Fallback) :
    Except UnknownRuleset Run :=
  (document.validate worker.policy).map fun validation => { validation, fallbacks }

/-- Validates a document on the pool, or on the caller's thread where the pool does not deliver. A
ruleset that is not known is found out before anything is submitted. -/
def runOn (schedule : Schedule) (worker : Worker) (document : Document)
    (timeout : Option Binary64) : Except UnknownRuleset Run × Worker :=
  match Ruleset.resolve document.ruleset worker.policy.defaultRuleset.name with
  | .error error => (.error error, worker)
  | .ok _ =>
      let wait := timeout.getD worker.policy.timeout
      match if worker.closed then none else worker.pool with
      | none => (worker.runHere document [], worker)
      | some pool =>
          match schedule.deliver pool wait (document.validate worker.policy) with
          | none => (worker.runHere document [.refused], worker)
          | some (.answered answer, next) =>
              (answer.map fun validation => { validation, fallbacks := [] },
                { worker with pool := some next })
          | some (.queued, next) =>
              (worker.runHere document [.queued wait], { worker with pool := some next })
          | some (.hanging, next) =>
              (worker.runHere document [.hanging wait], { worker with pool := some next })

/-- Validates a document on a pool that answers at once where it can. -/
def run (worker : Worker) (document : Document) (timeout : Option Binary64) :
    Except UnknownRuleset Run × Worker :=
  worker.runOn .prompt document timeout

end Worker

end Deduction

import Deduction.Proofs.Validation.Conclusion
import Deduction.Worker.Basic

/-!
Workers over time: whatever happened to a worker, it answers as a validation without one does.

What a worker went through shows in two places only. It is active when it has a pool from the start
and was never shut down, and an active worker falls back at once when its pool was closed behind
its back. Every other fallback is the pool's doing, and each way to an answer leaves its one
fallback, or none.
-/

namespace Deduction

inductive Event
  | run (schedule : Schedule) (document : Document) (timeout : Option Binary64)
  | shutDown
  | block
  | stall
  | breakPool

namespace Event

def isShutDown : Event → Bool
  | .shutDown => true
  | _ => false

/-- The pool is closed behind the worker's back. -/
def isBreakPool : Event → Bool
  | .breakPool => true
  | _ => false

end Event

/-- The fallbacks that a delivery leads to after a wait. -/
def Delivery.fallbacks (wait : Binary64) : Delivery → List Fallback
  | .answered _ => []
  | .queued => [.queued wait]
  | .hanging => [.hanging wait]

namespace Worker

theorem isActive_iff {worker : Worker} :
    worker.isActive = true ↔ ∃ pool, worker.pool = some pool ∧ worker.closed = false := by
  simp [isActive, Option.isSome_iff_exists]

def after (worker : Worker) : Event → Worker
  | .run schedule document timeout => (worker.runOn schedule document timeout).2
  | .shutDown => worker.shutDown
  | .block => worker.block
  | .stall => worker.stall
  | .breakPool => worker.breakPool

/-- A worker under a policy after a history of events. -/
def ofHistory (policy : Policy) (history : List Event) : Worker :=
  history.foldl after (start policy)

/-- The ways to an answer under a known ruleset, with the fallbacks they leave and the worker after
them. -/
inductive Path (schedule : Schedule) (worker : Worker) (task : Answer) (wait : Binary64) :
    List Fallback → Worker → Prop
  | inactive : worker.isActive = false → Path schedule worker task wait [] worker
  | refused {pool : Pool} : worker.isActive = true → worker.pool = some pool →
      pool.closed = true → Path schedule worker task wait [.refused] worker
  | taken {pool next : Pool} {delivery : Delivery} : worker.isActive = true →
      worker.pool = some pool → pool.closed = false →
      schedule.deliver pool wait task = some (delivery, next) →
      Path schedule worker task wait (delivery.fallbacks wait) { worker with pool := some next }

section Run

variable {worker : Worker} {document : Document}

theorem runOn_of_unknown {error : UnknownRuleset}
    (hresolve : Ruleset.resolve document.ruleset worker.policy.defaultRuleset.name = .error error)
    (schedule : Schedule) (timeout : Option Binary64) :
    worker.runOn schedule document timeout = (.error error, worker) := by
  rw [runOn, hresolve]

/-- Under a known ruleset a run takes one of the paths, and at the end of each stands what the
caller's own validation comes to. -/
theorem exists_path {ruleset : Ruleset}
    (hresolve : Ruleset.resolve document.ruleset worker.policy.defaultRuleset.name = .ok ruleset)
    (schedule : Schedule) (timeout : Option Binary64) :
    ∃ fallbacks next,
      worker.runOn schedule document timeout = (worker.runHere document fallbacks, next) ∧
      Path schedule worker (document.validate worker.policy)
        (timeout.getD worker.policy.timeout) fallbacks next := by
  rw [runOn, hresolve]
  cases hactive : worker.isActive with
  | false =>
      have hnone : (if worker.closed then none else worker.pool) = none := by
        cases hclosed : worker.closed with
        | true => rfl
        | false => simpa [isActive, hclosed] using hactive
      simp only [hnone]
      exact ⟨_, _, rfl, .inactive hactive⟩
  | true =>
      obtain ⟨pool, hpool, hopen⟩ := isActive_iff.1 hactive
      have hsome : (if worker.closed then none else worker.pool) = some pool := by
        rw [hopen, hpool]
        rfl
      simp only [hsome]
      cases hdeliver : schedule.deliver pool (timeout.getD worker.policy.timeout)
          (document.validate worker.policy) with
      | none => exact ⟨_, _, rfl, .refused hactive hpool (Schedule.deliver_eq_none_iff.1 hdeliver)⟩
      | some taken =>
          obtain ⟨delivery, next⟩ := taken
          have hclosed : pool.closed = false := by
            rw [← Bool.not_eq_true, ← Schedule.deliver_eq_none_iff, hdeliver]
            exact Option.some_ne_none _
          refine ⟨_, _, ?_, .taken hactive hpool hclosed hdeliver⟩
          cases delivery with
          | answered answer =>
              rw [schedule.answer_eq (Schedule.deliver_eq_some_iff.1 hdeliver)]
              rfl
          | queued => rfl
          | hanging => rfl

theorem map_validation_runHere (worker : Worker) (document : Document)
    (fallbacks : List Fallback) :
    (worker.runHere document fallbacks).map Run.validation = document.validate worker.policy := by
  rw [runHere]
  cases document.validate worker.policy <;> rfl

/-- Whatever its path, a run answers as the caller's own validation does. -/
theorem map_validation_runOn (worker : Worker) (schedule : Schedule) (document : Document)
    (timeout : Option Binary64) :
    (worker.runOn schedule document timeout).1.map Run.validation =
      document.validate worker.policy := by
  cases hresolve : Ruleset.resolve document.ruleset worker.policy.defaultRuleset.name with
  | error error =>
      rw [runOn_of_unknown hresolve, Document.validate_of_unknown hresolve, Except.map]
  | ok ruleset =>
      obtain ⟨fallbacks, next, hrun, -⟩ := exists_path hresolve schedule timeout
      rw [hrun, map_validation_runHere]

end Run

/-- A worker knows of its history by its pool and by being closed. -/
structure Remembers (policy : Policy) (history : List Event) (worker : Worker) : Prop where
  policy_eq : worker.policy = policy
  closed_eq : worker.closed = history.any Event.isShutDown
  isSome_pool : worker.pool.isSome = (policy.workerEnabled && !history.any Event.isShutDown)
  closed_pool : ∀ pool, worker.pool = some pool → pool.closed = history.any Event.isBreakPool

theorem remembers_start (policy : Policy) : Remembers policy [] (start policy) where
  policy_eq := rfl
  closed_eq := rfl
  isSome_pool := by
    cases henabled : policy.workerEnabled <;> simp [start, henabled]
  closed_pool pool hpool := by
    cases henabled : policy.workerEnabled with
    | false => simp [start, henabled] at hpool
    | true =>
        simp only [start, henabled, if_true, Option.some.injEq] at hpool
        rw [← hpool, List.any_nil]

theorem Remembers.of_pool {policy : Policy} {history : List Event} {worker next : Worker}
    {event : Event} (hworker : Remembers policy history worker)
    (hshut : event.isShutDown = false) (hbreak : event.isBreakPool = false)
    (hpolicy : next.policy = worker.policy) (hclosed : next.closed = worker.closed)
    (hsome : next.pool.isSome = worker.pool.isSome)
    (hpool : ∀ pool, next.pool = some pool →
      ∃ pool', worker.pool = some pool' ∧ pool.closed = pool'.closed) :
    Remembers policy (history ++ [event]) next where
  policy_eq := hpolicy.trans hworker.policy_eq
  closed_eq := by simp [hclosed, hworker.closed_eq, hshut]
  isSome_pool := by simp [hsome, hworker.isSome_pool, hshut]
  closed_pool pool hnext := by
    obtain ⟨pool', hpool', hsame⟩ := hpool pool hnext
    simp [hsame, hworker.closed_pool pool' hpool', hbreak]

theorem Remembers.map_pool {policy : Policy} {history : List Event} {worker : Worker}
    {event : Event} (hworker : Remembers policy history worker)
    (hshut : event.isShutDown = false) (hbreak : event.isBreakPool = false) {change : Pool → Pool}
    (hchange : ∀ pool, (change pool).closed = pool.closed) :
    Remembers policy (history ++ [event]) { worker with pool := worker.pool.map change } := by
  refine hworker.of_pool hshut hbreak rfl rfl (by simp) ?_
  intro pool hpool
  obtain ⟨pool', hpool', rfl⟩ := Option.map_eq_some_iff.1 hpool
  exact ⟨pool', hpool', hchange pool'⟩

theorem Remembers.after {policy : Policy} {history : List Event} {worker : Worker}
    (hworker : Remembers policy history worker) (event : Event) :
    Remembers policy (history ++ [event]) (worker.after event) := by
  cases event with
  | run schedule document timeout =>
      have hsame : Remembers policy (history ++ [.run schedule document timeout]) worker :=
        hworker.of_pool rfl rfl rfl rfl rfl fun pool hpool => ⟨pool, hpool, rfl⟩
      rw [Worker.after]
      cases hresolve : Ruleset.resolve document.ruleset worker.policy.defaultRuleset.name with
      | error error =>
          rw [runOn_of_unknown hresolve]
          exact hsame
      | ok ruleset =>
          obtain ⟨fallbacks, next, hrun, hpath⟩ := exists_path hresolve schedule timeout
          rw [hrun]
          cases hpath with
          | inactive => exact hsame
          | refused => exact hsame
          | @taken pool next _ _ hpool _ hdeliver =>
              refine hworker.of_pool rfl rfl rfl rfl (by simp [hpool]) ?_
              intro pool' hpool'
              have hclosed := schedule.closed_eq (Schedule.deliver_eq_some_iff.1 hdeliver)
              exact ⟨pool, hpool, by rw [← Option.some.inj hpool', hclosed]⟩
  | shutDown =>
      rw [Worker.after, shutDown]
      cases hclosed : worker.closed with
      | true =>
          -- A worker that was closed before has no pool to give up.
          have hpast := hworker.closed_eq.symm.trans hclosed
          have hnone : worker.pool = none := by simpa [hpast] using hworker.isSome_pool
          refine ⟨hworker.policy_eq, by simp [hclosed, Event.isShutDown],
            by simp [hnone, Event.isShutDown], ?_⟩
          intro pool hpool
          simp [hnone] at hpool
      | false =>
          refine ⟨hworker.policy_eq, by simp [Event.isShutDown], by simp [Event.isShutDown], ?_⟩
          intro pool hpool
          simp at hpool
  | block => exact hworker.map_pool rfl rfl fun _ => rfl
  | stall => exact hworker.map_pool rfl rfl fun _ => rfl
  | breakPool =>
      rw [Worker.after, breakPool]
      refine ⟨hworker.policy_eq, by simp [hworker.closed_eq, Event.isShutDown],
        by simp [hworker.isSome_pool, Event.isShutDown], ?_⟩
      intro pool hpool
      obtain ⟨pool', -, rfl⟩ := Option.map_eq_some_iff.1 hpool
      simp [Event.isBreakPool]

theorem Remembers.foldl_after {policy : Policy} {history : List Event} {worker : Worker}
    (hworker : Remembers policy history worker) (events : List Event) :
    Remembers policy (history ++ events) (events.foldl Worker.after worker) := by
  induction events generalizing history worker with
  | nil => simpa using hworker
  | cons event events ih => simpa using ih (hworker.after event)

/-- A worker remembers whatever happened to it. -/
theorem remembers_ofHistory (policy : Policy) (history : List Event) :
    Remembers policy history (ofHistory policy history) :=
  (remembers_start policy).foldl_after history

theorem Remembers.isActive_eq {policy : Policy} {history : List Event} {worker : Worker}
    (hworker : Remembers policy history worker) :
    worker.isActive = (policy.workerEnabled && !history.any Event.isShutDown) := by
  rw [isActive, hworker.isSome_pool, hworker.closed_eq, Bool.and_assoc, Bool.and_self]

theorem shutDown_shutDown (worker : Worker) : worker.shutDown.shutDown = worker.shutDown := by
  cases hclosed : worker.closed with
  | true => simp [shutDown, hclosed]
  | false => simp [shutDown, hclosed]

theorem fallbacks_of_runHere {worker : Worker} {document : Document} {fallbacks : List Fallback}
    {run : Run} (hrun : worker.runHere document fallbacks = .ok run) :
    run.fallbacks = fallbacks := by
  rw [runHere] at hrun
  cases hvalidate : document.validate worker.policy with
  | error error => rw [hvalidate] at hrun; cases hrun
  | ok validation =>
      rw [hvalidate] at hrun
      cases hrun
      rfl

/-- Whatever happened to a worker, and however its pool deals with a task, a run answers as the
validation of the document does, and changes nothing where the ruleset is not known. There is no
fallback for a worker that is not active, one for a pool that was closed, and else those of the
delivery. A worker is active as long as it was not shut down, if it had a pool at all. -/
theorem answers_ofHistory (policy : Policy) (history : List Event) (schedule : Schedule)
    (document : Document) (timeout : Option Binary64) :
    ((ofHistory policy history).runOn schedule document timeout).1.map Run.validation =
        document.validate policy ∧
      (∀ error, document.validate policy = .error error →
        (ofHistory policy history).runOn schedule document timeout =
          (.error error, ofHistory policy history)) ∧
      (∀ run, ((ofHistory policy history).runOn schedule document timeout).1 = .ok run →
        ((ofHistory policy history).isActive = false ∧ run.fallbacks = []) ∨
        ((ofHistory policy history).isActive = true ∧ history.any Event.isBreakPool = true ∧
          run.fallbacks = [.refused]) ∨
        ((ofHistory policy history).isActive = true ∧ history.any Event.isBreakPool = false ∧
          ∃ pool delivery next, (ofHistory policy history).pool = some pool ∧
            schedule.deliver pool (timeout.getD policy.timeout) (document.validate policy) =
              some (delivery, next) ∧
            run.fallbacks = delivery.fallbacks (timeout.getD policy.timeout))) ∧
      (ofHistory policy history).isActive =
        (policy.workerEnabled && !history.any Event.isShutDown) ∧
      (ofHistory policy history).shutDown.shutDown = (ofHistory policy history).shutDown := by
  have hremembers := remembers_ofHistory policy history
  generalize ofHistory policy history = worker at hremembers
  obtain rfl := hremembers.policy_eq
  refine ⟨map_validation_runOn worker schedule document timeout, ?_⟩
  cases hresolve : Ruleset.resolve document.ruleset worker.policy.defaultRuleset.name with
  | error error =>
      have hrun := runOn_of_unknown hresolve schedule timeout
      have hvalidate := Document.validate_of_unknown hresolve
      refine ⟨?_, ?_, hremembers.isActive_eq, shutDown_shutDown worker⟩
      · intro error' herror
        rw [hvalidate, Except.error.injEq] at herror
        rw [hrun, herror]
      · intro run hok
        rw [hrun] at hok
        cases hok
  | ok ruleset =>
      obtain ⟨fallbacks, next, hrun, hpath⟩ := exists_path hresolve schedule timeout
      refine ⟨?_, ?_, hremembers.isActive_eq, shutDown_shutDown worker⟩
      · intro error herror
        rw [Document.validate_eq_run hresolve] at herror
        cases herror
      · intro run hok
        rw [hrun] at hok
        dsimp only at hok
        rw [fallbacks_of_runHere hok]
        cases hpath with
        | inactive hactive => exact .inl ⟨hactive, rfl⟩
        | refused hactive hpool hclosed =>
            exact .inr (.inl ⟨hactive, (hremembers.closed_pool _ hpool).symm.trans hclosed, rfl⟩)
        | taken hactive hpool hclosed hdeliver =>
            exact .inr (.inr ⟨hactive, (hremembers.closed_pool _ hpool).symm.trans hclosed,
              _, _, _, hpool, hdeliver, rfl⟩)

/-- The only thread of the pool hangs on an earlier task. -/
def oneHanging : List Event :=
  [.stall, .run .prompt Document.restated none]

theorem oneHanging_answers :
    ((ofHistory { maxWorkers := 1 } oneHanging).runOn .prompt Document.restated none).1.map
        Run.validation = Document.restated.validate { maxWorkers := 1 } ∧
      ∀ run,
        ((ofHistory { maxWorkers := 1 } oneHanging).runOn .prompt Document.restated none).1 =
          .ok run → run.fallbacks = [.queued (.ofInt 10)] := by
  have hactive : (ofHistory { maxWorkers := 1 } oneHanging).isActive = true := by decide +kernel
  have hbroken : oneHanging.any Event.isBreakPool = false := rfl
  have hpool : (ofHistory { maxWorkers := 1 } oneHanging).pool =
      some { size := 1, busy := 1, stalling := true } := by decide +kernel
  have hdeliver (wait : Binary64) (task : Answer) :
      Schedule.prompt.deliver { size := 1, busy := 1, stalling := true } wait task =
        some (.queued, { size := 1, busy := 1, stalling := true }) :=
    Schedule.deliver_eq_some_iff.2 rfl
  obtain ⟨hanswer, -, hfallbacks, -, -⟩ :=
    answers_ofHistory { maxWorkers := 1 } oneHanging .prompt Document.restated none
  refine ⟨hanswer, ?_⟩
  intro run hrun
  rcases hfallbacks run hrun with
    ⟨hinactive, -⟩ | ⟨-, hbroken', -⟩ | ⟨-, -, pool, delivery, next, hpool', htaken, hrest⟩
  · rw [hactive] at hinactive
    cases hinactive
  · rw [hbroken] at hbroken'
    cases hbroken'
  · rw [hpool, Option.some.injEq] at hpool'
    rw [← hpool', hdeliver, Option.some.injEq, Prod.mk.injEq] at htaken
    rw [hrest, ← htaken.1]
    rfl

end Worker

end Deduction

/-
# The worker pool under any interleaving

`workerPool` (`newWorkerPool`, `start`, `worker`, `execute`, `Submit`,
`Close`), `jobHandle.Wait` and `safeSendJob`.

The pool's goroutines are modelled by their program counters: each `Submit`
call (one per job), each worker and the one `Close` call; the pool's two
channels by whether they are closed, and each job's result channel (buffered,
capacity one) by its contents and whether it is closed.  `step` takes one
atomic action of one goroutine and is `none` when that goroutine is blocked
or elsewhere; a run is any list of actions, so every interleaving is one.  A
job's context becomes done at any time (`cancel`), and its function returns
whatever it returns (`finish`, and `fnReturns` on the nil pool).  Beside the
channels each job records how often its function started, what it returned
and what each `Wait` returned: what the statements read.

The unbuffered `p.jobs` hands a job from a blocked `Submit` to an idle worker
in one step (`recv`); once it is closed, a blocked or later send panics and
`safeSendJob` recovers (`sendPanics`).  Each job keeps `JobInv` and the pool
keeps `PoolInv` along every run from `newWorkerPool`, one step at a time, so
`submit_then_wait` holds of every job of every run: its function starts at
most once; the first `Wait` yields the function's own result if it ran, and
otherwise the pool-closed error or the context's error; until then the handle
can be received from or one worker holds the job before its send; and once
`Close` has returned on a pool with workers, no function starts
(`PoolInv.starts_fixed_after_close`).

`nil_fn_and_nil_pool` replays the two branches these leave out: a nil
function's handle yields an empty success, and the nil pool runs a function
after `Close` has returned.  A job's result channel is never nil, and `Wait`
is only called on handles `Submit` returned, so `execute`'s check of a nil
channel and `Wait`'s checks of a nil handle are left out.
-/

import Ecs.Scheduler.Tick

namespace Ecs

deriving instance DecidableEq for JobResult

namespace WorkerPool

/-- `jobResult{}`. -/
def emptyResult : JobResult α := ⟨none, [], none⟩

/-- `jobResult{err: e}`. -/
def errResult (e : Error) : JobResult α := ⟨some e, [], none⟩

/-- Where a job's `Submit` call is. -/
inductive SubmitPc
  | notCalled
  | selecting
  /-- blocked in `safeSendJob`'s send on `p.jobs` -/
  | sending
  /-- running the function itself, on the nil pool -/
  | running
  | returned
deriving DecidableEq, Repr

/-- Where a worker goroutine is. -/
inductive WorkerPc
  /-- in `worker`'s `select` -/
  | idle
  /-- has received job `j`; `execute` is next -/
  | received (j : ℕ)
  /-- job `j`'s function is running -/
  | running (j : ℕ)
  /-- has sent job `j`'s result; the deferred `close(job.result)` is next -/
  | sent (j : ℕ)
  | exited
deriving DecidableEq, Repr

/-- The job a worker holds. -/
def WorkerPc.job : WorkerPc → Option ℕ
  | .received j | .running j | .sent j => some j
  | _ => none

/-- Where the one `Close` call is: before `once.Do`, after `close(p.closed)`,
after `close(p.jobs)`, and after `p.wg.Wait()`. -/
inductive ClosePc
  | notCalled
  | closedSignal
  | closedJobs
  | returned
deriving DecidableEq, Repr

/-- One job: its `Submit` call, its context, its result channel, and what the
statements observe of it. -/
structure Job (α : Type) where
  pc : SubmitPc
  /-- `fn == nil` -/
  fnNil : Bool
  /-- `ctx.Err()`: `none` while the context is not done -/
  ctxErr : Option CtxError
  /-- the values in the result channel -/
  result : List (JobResult α)
  resultClosed : Bool
  /-- how often the function started -/
  starts : ℕ
  /-- what the function returned -/
  fnReturned : Option (JobResult α)
  /-- what each `Wait` on the handle returned, in order -/
  waits : List (JobResult α)

/-- A job no `Submit` has been called for. -/
def Job.init : Job α := ⟨.notCalled, false, none, [], false, 0, none, []⟩

/-- The pool with the goroutines around it. -/
structure State (α : Type) where
  /-- `p.size`; `0` is the nil pool -/
  size : ℕ
  /-- `p.closed` is closed -/
  closed : Bool
  /-- `p.jobs` is closed -/
  jobsClosed : Bool
  workers : ℕ → WorkerPc
  closeCall : ClosePc
  jobs : ℕ → Job α

/-- Go's `newWorkerPool` and `start`: a size `≤ 0` gives the nil pool, any
other `size` idle workers (the workers past them never run). -/
def newWorkerPool (size : ℤ) : State α :=
  { size := size.toNat
    closed := false
    jobsClosed := false
    workers := fun w => if w < size.toNat then .idle else .exited
    closeCall := .notCalled
    jobs := fun _ => .init }

namespace State

/-- Job `j` becomes `job`. -/
def setJob (s : State α) (j : ℕ) (job : Job α) : State α :=
  { s with jobs := Function.update s.jobs j job }

/-- Worker `w` moves to `pc`. -/
def setWorker (s : State α) (w : ℕ) (pc : WorkerPc) : State α :=
  { s with workers := Function.update s.workers w pc }

@[simp] theorem setJob_jobs (s : State α) (j : ℕ) (job : Job α) :
    (s.setJob j job).jobs = Function.update s.jobs j job := rfl

@[simp] theorem setJob_workers (s : State α) (j : ℕ) (job : Job α) :
    (s.setJob j job).workers = s.workers := rfl

@[simp] theorem setJob_size (s : State α) (j : ℕ) (job : Job α) :
    (s.setJob j job).size = s.size := rfl

@[simp] theorem setJob_closeCall (s : State α) (j : ℕ) (job : Job α) :
    (s.setJob j job).closeCall = s.closeCall := rfl

@[simp] theorem setWorker_jobs (s : State α) (w : ℕ) (pc : WorkerPc) :
    (s.setWorker w pc).jobs = s.jobs := rfl

@[simp] theorem setWorker_workers (s : State α) (w : ℕ) (pc : WorkerPc) :
    (s.setWorker w pc).workers = Function.update s.workers w pc := rfl

@[simp] theorem setWorker_size (s : State α) (w : ℕ) (pc : WorkerPc) :
    (s.setWorker w pc).size = s.size := rfl

@[simp] theorem setWorker_closeCall (s : State α) (w : ℕ) (pc : WorkerPc) :
    (s.setWorker w pc).closeCall = s.closeCall := rfl

end State

/-- `result <- v; close(result); return &jobHandle{result: result}` at the end
of `Submit`. -/
def Job.submitReturns (job : Job α) (v : JobResult α) : Job α :=
  { job with result := job.result ++ [v], resultClosed := true, pc := .returned }

/-- `job.result <- v` in `execute`. -/
def Job.send (job : Job α) (v : JobResult α) : Job α :=
  { job with result := job.result ++ [v] }

/-- One atomic action of one goroutine. -/
inductive Action (α : Type)
  /-- `Submit` is called for job `j`, with a nil function or not -/
  | submit (j : ℕ) (fnNil : Bool)
  /-- job `j`'s context becomes done -/
  | cancel (j : ℕ) (e : CtxError)
  /-- `Submit`'s `select` takes `<-p.closed` -/
  | selectClosed (j : ℕ)
  /-- `Submit`'s `select` takes `<-ctx.Done()` -/
  | selectCtx (j : ℕ)
  /-- `Submit`'s `select` takes `default` -/
  | selectDefault (j : ℕ)
  /-- `safeSendJob`'s send panics on the closed `p.jobs`; `Submit` goes on -/
  | sendPanics (j : ℕ)
  /-- on the nil pool, job `j`'s function returns `r` to `Submit` -/
  | fnReturns (j : ℕ) (r : JobResult α)
  /-- worker `w` receives job `j` from its blocked `Submit` -/
  | recv (w j : ℕ)
  /-- worker `w`'s receive finds `p.jobs` closed -/
  | recvClosed (w : ℕ)
  /-- worker `w`'s `select` takes `<-p.closed` -/
  | seeClosed (w : ℕ)
  /-- worker `w` runs `execute` up to its send, or up to the function's call -/
  | execute (w : ℕ)
  /-- the function worker `w` runs returns `r`, and the worker sends it -/
  | finish (w : ℕ) (r : JobResult α)
  /-- worker `w` closes its job's result channel -/
  | closeResult (w : ℕ)
  /-- `Close` calls `once.Do` and closes `p.closed`; on the nil pool it returns -/
  | closeOnce
  /-- `Close` closes `p.jobs` -/
  | closeJobs
  /-- `Close`'s `p.wg.Wait()` returns -/
  | closeWait
  /-- `Wait` on job `j`'s handle receives -/
  | wait (j : ℕ)

namespace State

/-- One atomic action; `none` when its goroutine is blocked or elsewhere. -/
def step (s : State α) : Action α → Option (State α)
  | .submit j fnNil =>
    -- `result := make(chan jobResult, 1)` once the nil checks have passed
    let job := { s.jobs j with fnNil := fnNil, result := [], resultClosed := false }
    if (s.jobs j).pc = .notCalled then
      some <| s.setJob j <|
        if fnNil then job.submitReturns emptyResult
        else if s.size = 0 then { job with pc := .running, starts := job.starts + 1 }
        else { job with pc := .selecting }
    else none
  | .cancel j e =>
    if (s.jobs j).ctxErr = none then some (s.setJob j { s.jobs j with ctxErr := some e })
    else none
  | .selectClosed j =>
    if (s.jobs j).pc = .selecting ∧ s.closed = true then
      some (s.setJob j ((s.jobs j).submitReturns (errResult .workerPoolClosed)))
    else none
  | .selectCtx j =>
    match (s.jobs j).ctxErr with
    | some e =>
      if (s.jobs j).pc = .selecting then
        some (s.setJob j ((s.jobs j).submitReturns (errResult e.toError)))
      else none
    | none => none
  | .selectDefault j =>
    if (s.jobs j).pc = .selecting ∧ s.closed = false ∧ (s.jobs j).ctxErr = none then
      some (s.setJob j { s.jobs j with pc := .sending })
    else none
  | .sendPanics j =>
    if (s.jobs j).pc = .sending ∧ s.jobsClosed = true then
      some (s.setJob j ((s.jobs j).submitReturns (errResult .workerPoolClosed)))
    else none
  | .fnReturns j r =>
    if (s.jobs j).pc = .running then
      some (s.setJob j { (s.jobs j).submitReturns r with fnReturned := some r })
    else none
  | .recv w j =>
    if s.workers w = .idle ∧ (s.jobs j).pc = .sending ∧ s.jobsClosed = false then
      some ((s.setWorker w (.received j)).setJob j { s.jobs j with pc := .returned })
    else none
  | .recvClosed w =>
    if s.workers w = .idle ∧ s.jobsClosed = true then some (s.setWorker w .exited) else none
  | .seeClosed w =>
    if s.workers w = .idle ∧ s.closed = true then some (s.setWorker w .exited) else none
  | .execute w =>
    match s.workers w with
    | .received j =>
      some <|
        if (s.jobs j).fnNil then (s.setWorker w (.sent j)).setJob j ((s.jobs j).send emptyResult)
        else match (s.jobs j).ctxErr with
          | some e => (s.setWorker w (.sent j)).setJob j ((s.jobs j).send (errResult e.toError))
          | none =>
            (s.setWorker w (.running j)).setJob j { s.jobs j with starts := (s.jobs j).starts + 1 }
    | _ => none
  | .finish w r =>
    match s.workers w with
    | .running j =>
      some ((s.setWorker w (.sent j)).setJob j { (s.jobs j).send r with fnReturned := some r })
    | _ => none
  | .closeResult w =>
    match s.workers w with
    | .sent j => some ((s.setWorker w .idle).setJob j { s.jobs j with resultClosed := true })
    | _ => none
  | .closeOnce =>
    if s.closeCall = .notCalled then
      some <| if s.size = 0 then { s with closeCall := .returned }
        else { s with closed := true, closeCall := .closedSignal }
    else none
  | .closeJobs =>
    if s.closeCall = .closedSignal then some { s with jobsClosed := true, closeCall := .closedJobs }
    else none
  | .closeWait =>
    if s.closeCall = .closedJobs ∧ ∀ w < s.size, s.workers w = .exited then
      some { s with closeCall := .returned }
    else none
  | .wait j =>
    if (s.jobs j).pc = .returned then
      match (s.jobs j).result with
      | v :: rest => some (s.setJob j { s.jobs j with result := rest, waits := (s.jobs j).waits ++ [v] })
      | [] =>
        if (s.jobs j).resultClosed then
          some (s.setJob j { s.jobs j with waits := (s.jobs j).waits ++ [emptyResult] })
        else none
    else none

/-- A run: the actions one after another, `none` once one is blocked. -/
def run (s : State α) : List (Action α) → Option (State α)
  | [] => some s
  | a :: as => (step s a).bind (run · as)

@[simp] theorem run_nil (s : State α) : run s [] = some s := rfl

theorem run_cons (s : State α) (a : Action α) (as : List (Action α)) :
    run s (a :: as) = (step s a).bind (run · as) := rfl

end State

/-! ### What every job of a reachable pool keeps -/

/-- What a job's result channel delivered first: what the first `Wait` took,
or else what the channel holds. -/
def Job.delivered (job : Job α) : Option (JobResult α) := (job.waits ++ job.result).head?

/-- The values a job may deliver: its function's result if the function
started, and otherwise the pool-closed error, its context's error, or, for a
nil function, the empty result. -/
def Job.Allowed (job : Job α) (v : JobResult α) : Prop :=
  (job.starts = 1 ∧ job.fnReturned = some v) ∨
  (job.starts = 0 ∧ (v = errResult .workerPoolClosed ∨
    ∃ e, job.ctxErr = some e ∧ v = errResult e.toError)) ∨
  (job.fnNil = true ∧ job.starts = 0 ∧ v = emptyResult)

/-- What a worker at `pc` that holds the job knows of it. -/
def Job.HeldAt (job : Job α) : WorkerPc → Prop
  | .received _ => job.delivered = none ∧ job.starts = 0 ∧ job.fnReturned = none
  | .running _ => job.delivered = none ∧ job.starts = 1 ∧ job.fnReturned = none
  | _ => job.delivered.isSome

theorem Job.delivered_eq_none {job : Job α} :
    job.delivered = none ↔ job.waits = [] ∧ job.result = [] := by
  simp [Job.delivered]

/-- A send on a channel that has delivered nothing delivers what it sends. -/
theorem Job.delivered_send {job : Job α} (h : job.delivered = none) (v : JobResult α) :
    (job.send v).delivered = some v := by
  obtain ⟨hw, hr⟩ := Job.delivered_eq_none.1 h
  simp [Job.delivered, Job.send, hw, hr]

theorem Job.delivered_submitReturns {job : Job α} (h : job.delivered = none) (v : JobResult α) :
    (job.submitReturns v).delivered = some v :=
  Job.delivered_send h v

/-- **The invariant of one job.**  Its function starts at most once, its
result channel holds at most one value and is closed only after delivering
one of the values `Allowed` lists; before `Submit` returns nothing is delivered, and
the function has started only on the nil pool; a worker that holds the job
holds it alone, after `Submit` returned, before the channel is closed; and a
job whose `Submit` returned has delivered or is held. -/
structure JobInv (s : State α) (j : ℕ) : Prop where
  starts_le : (s.jobs j).starts ≤ 1
  result_le : (s.jobs j).result.length ≤ 1
  closed : (s.jobs j).resultClosed = true → (s.jobs j).delivered.isSome
  allowed : ∀ v, (s.jobs j).delivered = some v → (s.jobs j).Allowed v
  pending : (s.jobs j).pc ≠ .returned → (s.jobs j).delivered = none ∧
    (s.jobs j).resultClosed = false ∧ (s.jobs j).fnReturned = none ∧
    ((s.jobs j).starts = 1 ↔ (s.jobs j).pc = .running)
  held : ∀ w, (s.workers w).job = some j → (s.jobs j).pc = .returned ∧
    (s.jobs j).resultClosed = false ∧ (s.jobs j).HeldAt (s.workers w)
  unique : ∀ w w', (s.workers w).job = some j → (s.workers w').job = some j → w = w'
  returned : (s.jobs j).pc = .returned →
    (s.jobs j).delivered.isSome ∨ ∃ w, (s.workers w).job = some j

theorem jobInv_newWorkerPool (size : ℤ) (j : ℕ) : JobInv (newWorkerPool size : State α) j where
  starts_le := by simp [newWorkerPool, Job.init]
  result_le := by simp [newWorkerPool, Job.init]
  closed := by simp [newWorkerPool, Job.init]
  allowed := by simp [newWorkerPool, Job.init, Job.delivered]
  pending _ := by simp [newWorkerPool, Job.init, Job.delivered]
  held w := by simp only [newWorkerPool]; split_ifs <;> simp [WorkerPc.job]
  unique w _ := by simp only [newWorkerPool]; split_ifs <;> simp [WorkerPc.job]
  returned := by simp [newWorkerPool, Job.init]

namespace JobInv

variable {s : State α} {j : ℕ}

/-- **Frame.**  A step that leaves the job and the workers holding it as they
were keeps its invariant. -/
theorem frame {s' : State α} (h : JobInv s j) (hjob : s'.jobs j = s.jobs j)
    (hw : ∀ w, (s'.workers w).job = some j ∨ (s.workers w).job = some j →
      s'.workers w = s.workers w) : JobInv s' j := by
  have hw' : ∀ w, (s'.workers w).job = some j ↔ (s.workers w).job = some j := fun w =>
    ⟨fun h' => hw w (.inl h') ▸ h', fun h' => (hw w (.inr h')).symm ▸ h'⟩
  refine ⟨hjob ▸ h.starts_le, hjob ▸ h.result_le, hjob ▸ h.closed, hjob ▸ h.allowed,
    hjob ▸ h.pending, fun w hj => ?_, fun w w' hj hj' => h.unique w w' ((hw' w).1 hj)
    ((hw' w').1 hj'), fun hp => ?_⟩
  · rw [hjob, hw w (.inl hj)]
    exact h.held w ((hw' w).1 hj)
  · rcases h.returned (hjob ▸ hp) with hd | ⟨w, hj⟩
    · exact .inl (hjob ▸ hd)
    · exact .inr ⟨w, (hw' w).2 hj⟩

theorem setJob_ne (h : JobInv s j) {j₀ : ℕ} (hj : j ≠ j₀) (job : Job α) :
    JobInv (s.setJob j₀ job) j :=
  h.frame (by simp [hj]) fun _ _ => rfl

theorem setWorker_other (h : JobInv s j) {w : ℕ} {pc : WorkerPc}
    (h₁ : (s.workers w).job ≠ some j) (h₂ : pc.job ≠ some j) : JobInv (s.setWorker w pc) j := by
  refine h.frame rfl fun w' hw' => ?_
  by_cases hw : w' = w
  · subst hw; simp at hw'; tauto
  · simp [hw]

/-- A job no worker holds, changed by its own `Submit`, keeps its invariant
when the new job keeps the job's own part of it. -/
theorem setJob_pending (h : JobInv s j) (hpc : (s.jobs j).pc ≠ .returned) {job : Job α}
    (h₁ : job.starts ≤ 1) (h₂ : job.result.length ≤ 1)
    (h₃ : job.resultClosed = true → job.delivered.isSome)
    (h₄ : ∀ v, job.delivered = some v → job.Allowed v)
    (h₅ : job.pc ≠ .returned → job.delivered = none ∧ job.resultClosed = false ∧
      job.fnReturned = none ∧ (job.starts = 1 ↔ job.pc = .running))
    (h₆ : job.pc = .returned → job.delivered.isSome) : JobInv (s.setJob j job) j := by
  have hfree : ∀ w, (s.workers w).job ≠ some j := fun w hw => hpc (h.held w hw).1
  refine ⟨by simpa using h₁, by simpa using h₂, by simpa using h₃, by simpa using h₄,
    by simpa using h₅, fun w hw => absurd hw (by simpa using hfree w),
    fun w _ hw => absurd hw (by simpa using hfree w), fun hp => .inl (by simpa using h₆ (by simpa using hp))⟩

/-- A change of the job that keeps what the invariant reads of it, the
channel's length aside, keeps its invariant. -/
theorem setJob_same (h : JobInv s j) {job : Job α} (hpc : job.pc = (s.jobs j).pc)
    (hcl : job.resultClosed = (s.jobs j).resultClosed) (hst : job.starts = (s.jobs j).starts)
    (hfn : job.fnReturned = (s.jobs j).fnReturned) (hdel : job.delivered = (s.jobs j).delivered)
    (hres : job.result.length ≤ (s.jobs j).result.length)
    (hall : ∀ v, (s.jobs j).Allowed v → job.Allowed v) : JobInv (s.setJob j job) j := by
  have hheld : ∀ pc, job.HeldAt pc ↔ (s.jobs j).HeldAt pc := by
    intro pc; cases pc <;> simp [Job.HeldAt, hdel, hst, hfn]
  refine ⟨by simpa [hst] using h.starts_le, by simpa using hres.trans h.result_le,
    by simpa [hcl, hdel] using h.closed,
    fun v hv => by simpa using hall v (h.allowed v (by simpa [hdel] using hv)),
    by simpa [hpc, hdel, hcl, hfn, hst] using h.pending, fun w hw => ?_, by simpa using h.unique,
    by simpa [hpc, hdel] using h.returned⟩
  simpa [hpc, hcl, hheld] using h.held w (by simpa using hw)

/-- **Worker step.**  Worker `w`, which held job `j` or was idle while no
worker held it, moves to `pc`, which holds `j` or is idle, and the job
becomes `job`: the invariant holds when the job keeps its own part of it. -/
theorem move (h : JobInv s j) {w : ℕ} {pc : WorkerPc} {job : Job α}
    (hw : (s.workers w).job = some j ∨ (s.workers w = .idle ∧ ∀ w', (s.workers w').job ≠ some j))
    (hpc : pc.job = some j ∨ pc = .idle)
    (h₁ : job.starts ≤ 1) (h₂ : job.result.length ≤ 1)
    (h₃ : job.resultClosed = true → job.delivered.isSome)
    (h₄ : ∀ v, job.delivered = some v → job.Allowed v) (h₅ : job.pc = .returned)
    (h₆ : pc.job = some j → job.resultClosed = false ∧ job.HeldAt pc)
    (h₇ : pc = .idle → job.delivered.isSome) :
    JobInv ((s.setWorker w pc).setJob j job) j := by
  -- after the step only `w` may hold the job
  have honly : ∀ w', (Function.update s.workers w pc w').job = some j → w' = w := by
    intro w' hw'
    by_contra hne
    rw [Function.update_noteq hne] at hw'
    rcases hw with hw | ⟨-, hfree⟩
    · exact hne (h.unique w' w hw' hw)
    · exact hfree w' hw'
  refine ⟨by simpa using h₁, by simpa using h₂, by simpa using h₃, by simpa using h₄,
    by simp [h₅], fun w' hw' => ?_, fun w₁ w₂ h₁' h₂' => ?_, fun _ => ?_⟩
  · have := honly w' (by simpa using hw')
    subst this
    simp only [State.setJob_workers, State.setWorker_workers, Function.update_same] at hw' ⊢
    simpa [h₅] using h₆ hw'
  · rw [honly w₁ (by simpa using h₁'), honly w₂ (by simpa using h₂')]
  · rcases hpc with hpc | rfl
    · exact .inr ⟨w, by simpa using hpc⟩
    · exact .inl (by simpa using h₇ rfl)

/-- A job no worker holds that `Submit` ends with an `Allowed` value keeps its
invariant. -/
theorem setJob_delivers (h : JobInv s j) (hpc : (s.jobs j).pc ≠ .returned) {job : Job α}
    {v : JobResult α} (hd : job.delivered = some v) (hr : job.result.length ≤ 1)
    (hp : job.pc = .returned) (hst : job.starts = (s.jobs j).starts) (hv : job.Allowed v) :
    JobInv (s.setJob j job) j :=
  h.setJob_pending hpc (hst ▸ h.starts_le) hr (fun _ => by simp [hd])
    (fun v' hv' => by rw [hd] at hv'; cases hv'; exact hv) (fun hn => absurd hp hn)
    (fun _ => by simp [hd])

/-- `Submit` ends with the pool-closed error or the context's error, on a job
whose function has not started. -/
theorem submitReturns (h : JobInv s j) (hpc : (s.jobs j).pc ≠ .returned)
    (hpc' : (s.jobs j).pc ≠ .running) {v : JobResult α}
    (hv : v = errResult .workerPoolClosed ∨ ∃ e, (s.jobs j).ctxErr = some e ∧ v = errResult e.toError) :
    JobInv (s.setJob j ((s.jobs j).submitReturns v)) j := by
  obtain ⟨hd, -, -, hst⟩ := h.pending hpc
  have h0 : (s.jobs j).starts = 0 := by
    have := h.starts_le; have := mt hst.1 hpc'; omega
  exact h.setJob_delivers hpc (Job.delivered_submitReturns hd _)
    (by simp [Job.submitReturns, (Job.delivered_eq_none.1 hd).2]) rfl rfl (.inr (.inl ⟨h0, hv⟩))

/-- A step that changes only job `j₀` keeps the invariant of every other job,
so only `j₀`'s own is left to show. -/
theorem setJob_of_self (h : JobInv s j) {j₀ : ℕ} {job : Job α}
    (hself : JobInv s j₀ → JobInv (s.setJob j₀ job) j₀) : JobInv (s.setJob j₀ job) j := by
  by_cases hj : j = j₀
  · subst hj; exact hself h
  · exact h.setJob_ne hj job

/-- A worker moving between job `j₀` and no job, and job `j₀` changing, keep
the invariant of every other job. -/
theorem move_ne (h : JobInv s j) {j₀ w : ℕ} (hj : j ≠ j₀) {pc : WorkerPc}
    (hw : (s.workers w).job = some j₀ ∨ (s.workers w).job = none)
    (hpc : pc.job = some j₀ ∨ pc.job = none) (job : Job α) :
    JobInv ((s.setWorker w pc).setJob j₀ job) j := by
  have hne : ∀ {o : Option ℕ}, o = some j₀ ∨ o = none → o ≠ some j := by
    rintro _ (rfl | rfl) <;> simp [Ne.symm hj]
  exact (h.setWorker_other (hne hw) (hne hpc)).setJob_ne hj job

theorem move_of_self (h : JobInv s j) {j₀ w : ℕ} {pc : WorkerPc} {job : Job α}
    (hw : (s.workers w).job = some j₀ ∨ (s.workers w).job = none)
    (hpc : pc.job = some j₀ ∨ pc.job = none)
    (hself : JobInv s j₀ → JobInv ((s.setWorker w pc).setJob j₀ job) j₀) :
    JobInv ((s.setWorker w pc).setJob j₀ job) j := by
  by_cases hj : j = j₀
  · subst hj; exact hself h
  · exact h.move_ne hj hw hpc job

/-- **Step.**  Every action keeps the invariant of every job. -/
theorem step (h : JobInv s j) {a : Action α} {s' : State α} (hs : s.step a = some s') :
    JobInv s' j := by
  cases a with
  | submit j₀ fnNil =>
    simp only [State.step] at hs
    split at hs
    swap; · cases hs
    rename_i hpc
    cases hs
    refine h.setJob_of_self fun h => ?_
    obtain ⟨hd, hcl, hfn, hst⟩ := h.pending (by simp [hpc])
    obtain ⟨hw, hr⟩ := Job.delivered_eq_none.1 hd
    have h0 : (s.jobs j₀).starts = 0 := by
      have := h.starts_le; simp [hpc] at hst; omega
    split_ifs <;> refine h.setJob_pending (by simp [hpc]) ?_ ?_ ?_ ?_ ?_ ?_ <;>
      simp [Job.submitReturns, Job.delivered, Job.Allowed, hw, h0, hfn, *]
  | cancel j₀ e =>
    simp only [State.step] at hs
    split_ifs at hs with hctx
    cases hs
    refine h.setJob_of_self fun h => h.setJob_same rfl rfl rfl rfl rfl le_rfl fun v hv => ?_
    rcases hv with hv | ⟨h0, hv | ⟨e', he', -⟩⟩ | hv
    · exact .inl hv
    · exact .inr (.inl ⟨h0, .inl hv⟩)
    · simp [hctx] at he'
    · exact .inr (.inr hv)
  | selectClosed j₀ =>
    simp only [State.step] at hs
    split_ifs at hs with hpc
    cases hs
    exact h.setJob_of_self fun h => h.submitReturns (by simp [hpc]) (by simp [hpc]) (.inl rfl)
  | selectCtx j₀ =>
    simp only [State.step] at hs
    split at hs
    swap; · cases hs
    rename_i e hctx
    split_ifs at hs with hpc
    cases hs
    exact h.setJob_of_self fun h =>
      h.submitReturns (by simp [hpc]) (by simp [hpc]) (.inr ⟨e, hctx, rfl⟩)
  | sendPanics j₀ =>
    simp only [State.step] at hs
    split_ifs at hs with hpc
    cases hs
    exact h.setJob_of_self fun h => h.submitReturns (by simp [hpc.1]) (by simp [hpc.1]) (.inl rfl)
  | selectDefault j₀ =>
    simp only [State.step] at hs
    split_ifs at hs with hpc
    cases hs
    refine h.setJob_of_self fun h => ?_
    obtain ⟨hd, hcl, hfn, hst⟩ := h.pending (by simp [hpc])
    refine h.setJob_pending (by simp [hpc]) h.starts_le h.result_le (by simp [hcl])
      (fun _ hv => Option.noConfusion (hd.symm.trans hv)) (fun _ => ⟨hd, hcl, hfn, ?_⟩) (by simp)
    simpa [hpc] using hst
  | fnReturns j₀ r =>
    simp only [State.step] at hs
    split_ifs at hs with hpc
    cases hs
    refine h.setJob_of_self fun h => ?_
    obtain ⟨hd, -, -, hst⟩ := h.pending (by simp [hpc])
    refine h.setJob_delivers (by simp [hpc]) (Job.delivered_submitReturns hd _)
      (by simp [Job.submitReturns, (Job.delivered_eq_none.1 hd).2]) rfl rfl (.inl ⟨?_, rfl⟩)
    simpa [hpc] using hst
  | recv w j₀ =>
    simp only [State.step] at hs
    split_ifs at hs with hc
    obtain ⟨hidle, hpc, -⟩ := hc
    cases hs
    refine h.move_of_self (.inr (by simp [hidle, WorkerPc.job])) (.inl rfl) fun h => ?_
    obtain ⟨hd, hcl, hfn, hst⟩ := h.pending (by simp [hpc])
    have h0 : (s.jobs j₀).starts = 0 := by
      have := h.starts_le; simp [hpc] at hst; omega
    exact h.move (.inr ⟨hidle, fun w' hw' => by simpa [hpc] using (h.held w' hw').1⟩)
      (.inl rfl) h.starts_le h.result_le (by simp [hcl])
      (fun _ hv => Option.noConfusion (hd.symm.trans hv)) rfl (fun _ => ⟨hcl, hd, h0, hfn⟩) (by simp)
  | recvClosed w | seeClosed w =>
    simp only [State.step] at hs
    split_ifs at hs with hc
    cases hs
    exact h.setWorker_other (by simp [hc.1, WorkerPc.job]) (by simp [WorkerPc.job])
  | execute w =>
    simp only [State.step] at hs
    split at hs
    case h_2 => cases hs
    rename_i j₀ hw
    cases hs
    have hw' : (s.workers w).job = some j₀ := by simp [hw, WorkerPc.job]
    by_cases hj : j = j₀
    swap
    · split_ifs
      · exact h.move_ne hj (.inl hw') (.inl (by rfl)) _
      · split <;> exact h.move_ne hj (.inl hw') (.inl (by rfl)) _
    subst hj
    have hh := h.held w hw'
    simp only [hw, Job.HeldAt] at hh
    obtain ⟨hpc, hcl, hd, h0, hfn⟩ := hh
    have hr := (Job.delivered_eq_none.1 hd).2
    -- the worker sends an `Allowed` value without running the function
    have hsend : ∀ v, (s.jobs j).Allowed v →
        JobInv ((s.setWorker w (.sent j)).setJob j ((s.jobs j).send v)) j := fun v hv =>
      h.move (.inl hw') (.inl rfl) (by simp [Job.send, h0]) (by simp [Job.send, hr])
        (fun _ => by simp [Job.delivered_send hd])
        (fun v' hv' => by rw [Job.delivered_send hd] at hv'; cases hv'; exact hv) hpc
        (fun _ => ⟨hcl, by simp [Job.HeldAt, Job.delivered_send hd]⟩) (by simp)
    split_ifs with hnil
    · exact hsend _ (.inr (.inr ⟨hnil, h0, rfl⟩))
    · split
      · exact hsend _ (.inr (.inl ⟨h0, .inr ⟨_, ‹_›, rfl⟩⟩))
      · exact h.move (.inl hw') (.inl rfl) (by simp [h0]) (by simp [hr]) (by simp [hcl])
          (fun _ hv => Option.noConfusion (hd.symm.trans hv)) hpc
          (fun _ => ⟨hcl, hd, by simp [h0], hfn⟩) (by simp)
  | finish w r =>
    simp only [State.step] at hs
    split at hs
    case h_2 => cases hs
    rename_i j₀ hw
    cases hs
    have hw' : (s.workers w).job = some j₀ := by simp [hw, WorkerPc.job]
    refine h.move_of_self (.inl hw') (.inl rfl) fun h => ?_
    have hh := h.held w hw'
    simp only [hw, Job.HeldAt] at hh
    obtain ⟨hpc, hcl, hd, h1, hfn⟩ := hh
    have hd' : ({ (s.jobs j₀).send r with fnReturned := some r } : Job α).delivered = some r :=
      Job.delivered_send hd r
    refine h.move (.inl hw') (.inl rfl) (by simp [Job.send, h1])
      (by simp [Job.send, (Job.delivered_eq_none.1 hd).2]) (fun _ => by simp [hd']) ?_ hpc
      (fun _ => ⟨hcl, by simp [Job.HeldAt, hd']⟩) (by simp)
    intro v hv
    rw [hd'] at hv
    cases hv
    exact .inl ⟨h1, rfl⟩
  | closeResult w =>
    simp only [State.step] at hs
    split at hs
    case h_2 => cases hs
    rename_i j₀ hw
    cases hs
    have hw' : (s.workers w).job = some j₀ := by simp [hw, WorkerPc.job]
    refine h.move_of_self (.inl hw') (.inr rfl) fun h => ?_
    have hh := h.held w hw'
    simp only [hw, Job.HeldAt] at hh
    obtain ⟨hpc, -, hd⟩ := hh
    exact h.move (.inl hw') (.inr rfl) h.starts_le h.result_le
      (fun _ => hd) h.allowed hpc (by simp [WorkerPc.job]) (fun _ => hd)
  | closeOnce | closeJobs | closeWait =>
    simp only [State.step] at hs
    split_ifs at hs
    all_goals cases hs
    all_goals exact h.frame rfl fun _ _ => rfl
  | wait j₀ =>
    simp only [State.step] at hs
    split at hs
    swap; · cases hs
    split at hs
    · rename_i v rest hres
      cases hs
      exact h.setJob_of_self fun h => h.setJob_same rfl rfl rfl rfl
        (by simp [Job.delivered, hres]) (by simp [hres]) fun _ hv => hv
    · rename_i hres
      split_ifs at hs with hcl
      cases hs
      refine h.setJob_of_self fun h => ?_
      have hw : (s.jobs j₀).waits ≠ [] := by
        have := h.closed hcl
        simp [Job.delivered, hres] at this
        simpa [List.head?_eq_none_iff] using this
      refine h.setJob_same rfl rfl rfl rfl ?_ (by simp [hres]) fun _ hv => hv
      obtain ⟨x, xs, hx⟩ := List.exists_cons_of_ne_nil hw
      simp [Job.delivered, hres, hx]

/-- **Run.**  The invariant of a job holds along every run. -/
theorem run : ∀ {acts : List (Action α)} {s s' : State α}, JobInv s j →
    s.run acts = some s' → JobInv s' j
  | [], _, _, h, hs => by cases hs; exact h
  | _ :: _, _, _, h, hs => by
    rw [State.run_cons] at hs
    obtain ⟨t, ht, hs⟩ := Option.bind_eq_some.1 hs
    exact run (h.step ht) hs

end JobInv

/-! ### After `Close` returned -/

/-- **The invariant of the pool.**  Its size stays the `n` it was made with,
the workers past it never run, and once `Close` has returned every worker has
exited. -/
structure PoolInv (n : ℕ) (s : State α) : Prop where
  size : s.size = n
  beyond : ∀ w, n ≤ w → s.workers w = .exited
  closed : s.closeCall = .returned → ∀ w, s.workers w = .exited

theorem poolInv_newWorkerPool (size : ℤ) :
    PoolInv size.toNat (newWorkerPool size : State α) where
  size := rfl
  beyond w hw := by simp [newWorkerPool]; omega
  closed h := by simp [newWorkerPool] at h

namespace PoolInv

variable {n : ℕ} {s s' : State α}

/-- A worker that moves from where it was, not exited, keeps the pool's
invariant. -/
theorem setWorker (h : PoolInv n s) {w : ℕ} (hw : s.workers w ≠ .exited) (pc : WorkerPc) :
    PoolInv n (s.setWorker w pc) := by
  have hlt : w < n := by by_contra hn; exact hw (h.beyond w (by omega))
  refine ⟨h.size, fun w' hw' => ?_, fun hc => absurd (h.closed hc w) hw⟩
  simp only [State.setWorker_workers]
  rw [Function.update_noteq (by omega)]
  exact h.beyond w' hw'

theorem setJob (h : PoolInv n s) (j : ℕ) (job : Job α) : PoolInv n (s.setJob j job) :=
  ⟨h.size, h.beyond, h.closed⟩

/-- **Step.**  Every action keeps the pool's invariant. -/
theorem step (h : PoolInv n s) {a : Action α} (hs : s.step a = some s') : PoolInv n s' := by
  cases a <;> simp only [State.step] at hs
  case closeOnce =>
    split_ifs at hs with hc hz <;> cases hs
    · exact ⟨h.size, h.beyond, fun _ w => h.beyond w (by simp [← h.size, hz])⟩
    · exact ⟨h.size, h.beyond, fun h' => by simp at h'⟩
  case closeJobs =>
    split_ifs at hs with hc; cases hs
    exact ⟨h.size, h.beyond, fun h' => by simp at h'⟩
  case closeWait =>
    split_ifs at hs with hc; cases hs
    refine ⟨h.size, h.beyond, fun _ w => ?_⟩
    by_cases hw : w < n
    · exact hc.2 w (h.size ▸ hw)
    · exact h.beyond w (by omega)
  case recvClosed w | seeClosed w =>
    split_ifs at hs with hc; cases hs
    exact h.setWorker (by simp [hc.1]) _
  case recv w j =>
    split_ifs at hs with hc; cases hs
    exact (h.setWorker (by simp [hc.1]) _).setJob _ _
  case execute w | finish w _ | closeResult w =>
    split at hs
    swap; · cases hs
    rename_i j hw
    cases hs
    first
    | exact (h.setWorker (by simp [hw]) _).setJob _ _
    | split_ifs
      · exact (h.setWorker (by simp [hw]) _).setJob _ _
      · split <;> exact (h.setWorker (by simp [hw]) _).setJob _ _
  case submit =>
    split at hs <;> cases hs
    exact h.setJob _ _
  case selectCtx =>
    split at hs
    · split_ifs at hs; cases hs
      exact h.setJob _ _
    · cases hs
  case wait =>
    split at hs
    swap; · cases hs
    split at hs
    · cases hs; exact h.setJob _ _
    · split_ifs at hs; cases hs
      exact h.setJob _ _
  all_goals split_ifs at hs; cases hs
  all_goals exact h.setJob _ _

theorem run : ∀ {acts : List (Action α)} {s s' : State α}, PoolInv n s →
    s.run acts = some s' → PoolInv n s'
  | [], _, _, h, hs => by cases hs; exact h
  | _ :: _, _, _, h, hs => by
    rw [State.run_cons] at hs
    obtain ⟨t, ht, hs⟩ := Option.bind_eq_some.1 hs
    exact run (h.step ht) hs

/-- After `Close` returned on a pool with workers, a step starts no job's
function and leaves `Close` returned: every worker has exited, and `Submit`
no longer runs functions itself. -/
theorem step_after_close (h : PoolInv n s) (hc : s.closeCall = .returned) (hsize : n ≠ 0)
    {a : Action α} (hs : s.step a = some s') :
    s'.closeCall = .returned ∧ ∀ j, (s'.jobs j).starts = (s.jobs j).starts := by
  have hex := h.closed hc
  have hkeep : ∀ j₀ (job : Job α), job.starts = (s.jobs j₀).starts →
      (s.setJob j₀ job).closeCall = .returned ∧
      ∀ j, ((s.setJob j₀ job).jobs j).starts = (s.jobs j).starts := fun j₀ job hst =>
    ⟨hc, fun j => by by_cases hj : j = j₀ <;> simp [Function.update_apply, hj, hst]⟩
  cases a <;> simp only [State.step] at hs
  case submit =>
    split at hs <;> cases hs
    split_ifs with _ hz
    · exact hkeep _ _ rfl
    · exact absurd (h.size.symm.trans hz) hsize
    · exact hkeep _ _ rfl
  case recv | recvClosed | seeClosed | execute | finish | closeResult => simp [hex] at hs
  case closeOnce | closeJobs | closeWait => simp [hc] at hs
  case selectCtx =>
    split at hs
    · split_ifs at hs; cases hs
      exact hkeep _ _ rfl
    · cases hs
  case wait =>
    split at hs
    swap; · cases hs
    split at hs
    · cases hs; exact hkeep _ _ rfl
    · split_ifs at hs; cases hs
      exact hkeep _ _ rfl
  all_goals split_ifs at hs; cases hs
  all_goals exact hkeep _ _ rfl

/-- **No function starts after `Close` returned**, on a pool with workers,
whatever runs next. -/
theorem starts_fixed_after_close : ∀ {acts : List (Action α)} {s s' : State α}, PoolInv n s →
    s.closeCall = .returned → n ≠ 0 → s.run acts = some s' →
    ∀ j, (s'.jobs j).starts = (s.jobs j).starts
  | [], _, _, _, _, _, hs, _ => by cases hs; rfl
  | _ :: _, _, _, h, hc, hz, hs, j => by
    rw [State.run_cons] at hs
    obtain ⟨t, ht, hs⟩ := Option.bind_eq_some.1 hs
    obtain ⟨htc, htj⟩ := step_after_close h hc hz ht
    rw [starts_fixed_after_close (h.step ht) htc hz hs j, htj j]

end PoolInv

/-! ### The first `Wait` -/

/-- A handle whose channel has delivered, with no `Wait` yet, can be received
from. -/
theorem wait_isSome {s : State α} {j : ℕ} (hpc : (s.jobs j).pc = .returned)
    (hd : (s.jobs j).delivered.isSome) (hw : (s.jobs j).waits = []) :
    (s.step (.wait j)).isSome := by
  simp only [Job.delivered, hw, List.nil_append] at hd
  obtain ⟨v, rest, hr⟩ := List.exists_cons_of_ne_nil (by simpa using hd)
  simp [State.step, hpc, hr]

/-- A job whose `Submit` returned, with no `Wait` yet, can be received from
now, or one worker holds it and has not sent its result yet. -/
theorem JobInv.wait_ready {s : State α} {j : ℕ} (h : JobInv s j)
    (hpc : (s.jobs j).pc = .returned) (hw : (s.jobs j).waits = []) :
    (s.step (.wait j)).isSome ∨ ∃ w, s.workers w = .received j ∨ s.workers w = .running j := by
  rcases h.returned hpc with hd | ⟨w, hj⟩
  · exact .inl (wait_isSome hpc hd hw)
  · have hh := (h.held w hj).2.2
    cases hsw : s.workers w <;> simp [hsw, WorkerPc.job] at hj
    all_goals subst hj
    · exact .inr ⟨w, .inl hsw⟩
    · exact .inr ⟨w, .inr hsw⟩
    · rw [hsw] at hh
      exact .inl (wait_isSome hpc hh hw)

/-- **Submit, the workers and Close, under every interleaving.**  On every run
from `newWorkerPool`, for every job: its function starts at most once; the
first `Wait` on the handle of a non-nil function yields its function's own
result if the function started, and otherwise the pool-closed error or the
context's error, never an empty success; while no `Wait` has received, the
handle can be received from, or exactly one worker holds the job before its
send; and on a pool with workers no function starts after `Close` has
returned. -/
theorem submit_then_wait (size : ℤ) (acts : List (Action α)) (s : State α)
    (hrun : (newWorkerPool size).run acts = some s) (j : ℕ) :
    (s.jobs j).starts ≤ 1 ∧
    (∀ v rest, (s.jobs j).fnNil = false → (s.jobs j).waits = v :: rest →
      ((s.jobs j).starts = 1 ∧ (s.jobs j).fnReturned = some v) ∨
      ((s.jobs j).starts = 0 ∧ (v = errResult .workerPoolClosed ∨
        ∃ e, (s.jobs j).ctxErr = some e ∧ v = errResult e.toError))) ∧
    ((s.jobs j).pc = .returned → (s.jobs j).waits = [] →
      (s.step (.wait j)).isSome ∨ ∃ w, (s.workers w = .received j ∨ s.workers w = .running j) ∧
        ∀ w', (s.workers w').job = some j → w' = w) ∧
    (0 < size → s.closeCall = .returned → ∀ acts' s', s.run acts' = some s' →
      (s'.jobs j).starts = (s.jobs j).starts) := by
  have h : JobInv s j := (jobInv_newWorkerPool size j).run hrun
  have hp : PoolInv size.toNat s := (poolInv_newWorkerPool size).run hrun
  -- the worker `wait_ready` finds is the job's only holder
  have hone : ∀ {w}, s.workers w = .received j ∨ s.workers w = .running j →
      ∀ w', (s.workers w').job = some j → w' = w := fun hw' w' hj =>
    h.unique w' _ hj (by rcases hw' with he | he <;> rw [he] <;> rfl)
  refine ⟨h.starts_le, fun v rest hnil hw => ?_,
    fun hpc hw => (h.wait_ready hpc hw).imp id fun ⟨w, hw'⟩ => ⟨w, hw', hone hw'⟩,
    fun hsize hc acts' s' hs => PoolInv.starts_fixed_after_close hp hc (by omega) hs j⟩
  rcases h.allowed v (by simp [Job.delivered, hw]) with h1 | h0 | ⟨hn, -⟩
  · exact .inl h1
  · exact .inr h0
  · simp [hnil] at hn

/-- One job on a pool of one worker, submitted, handed over, run, waited for,
and then `Close`: every part of `submit_then_wait` speaks of it. -/
theorem submit_then_wait_then_close :
    let acts : List (Action ℕ) := [.submit 0 false, .selectDefault 0, .recv 0 0, .execute 0,
      .finish 0 emptyResult, .closeResult 0, .wait 0, .closeOnce, .closeJobs, .seeClosed 0,
      .closeWait]
    ∃ s, (newWorkerPool 1).run acts = some s ∧ (s.jobs 0).fnNil = false ∧
      (s.jobs 0).waits = [emptyResult] ∧ s.closeCall = .returned ∧
      (s.jobs 0).starts = 1 ∧ (s.jobs 0).fnReturned = some emptyResult ∧
      ∀ acts' s', s.run acts' = some s' → (s'.jobs 0).starts = 1 := by
  intro acts
  have hf : ((newWorkerPool 1 : State ℕ).run acts).map (fun s => ((s.jobs 0).fnNil,
      (s.jobs 0).waits, s.closeCall, (s.jobs 0).starts)) =
      some (false, [emptyResult], .returned, 1) := by
    unfold acts; decide
  obtain ⟨s, hrun, hs⟩ := Option.map_eq_some'.1 hf
  simp only [Prod.mk.injEq] at hs
  obtain ⟨hnil, hw, hc, hst⟩ := hs
  have h := submit_then_wait 1 acts s hrun 0
  rcases h.2.1 emptyResult [] hnil hw with h1 | ⟨h0, -⟩
  · exact ⟨s, hrun, hnil, hw, hc, h1.1, h1.2, fun acts' s' hs =>
      (h.2.2.2 (by decide) hc acts' s' hs).trans h1.1⟩
  · omega

/-- **What the statement leaves out.**  A nil function's handle yields an
empty success though no function ran; and on the nil pool `Close` returns at
once, after which `Submit` runs its function itself. -/
theorem nil_fn_and_nil_pool :
    ((newWorkerPool 1 : State ℕ).run [.submit 0 true, .wait 0]).map
      (fun s => ((s.jobs 0).starts, (s.jobs 0).waits)) = some (0, [emptyResult]) ∧
    ((newWorkerPool 0 : State ℕ).run [.closeOnce]).map (·.closeCall) = some .returned ∧
    ((newWorkerPool 0 : State ℕ).run [.closeOnce, .submit 0 false]).map
      (fun s => (s.jobs 0).starts) = some 1 := by
  decide

end WorkerPool

end Ecs

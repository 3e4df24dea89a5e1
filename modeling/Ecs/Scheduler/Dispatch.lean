/-
# The async job, as the pool runs it

`basicScheduler.dispatchAsync` with a pool, and the function it hands to
`workerPool.Submit`.

`Ecs.Scheduler.Tick` models a dispatched group by what its handle's `Wait`
returns: `dispatchAsync` asks the context at `Submit` and again when a worker
takes the job up, and otherwise runs the group (`asyncJob`, the function the
code submits).  `Ecs.Scheduler.Pool` models the pool's goroutines themselves,
under every interleaving.  This module joins the two levels.  On a pool with
workers that is never closed, and whose jobs' functions return what
`asyncJob` returns, the first `Wait` on a job's handle yields exactly the
values `dispatchAsync` yields for some answers of those two checks
(`pool_wait_iff_dispatchAsync`).  The tick's model of a job drops no
behaviour of the pool and adds none.

The pool-closed error, which `dispatchAsync` leaves out, is the one value the
model of a job does not have; on a pool that is never closed it only comes out
of the job's function (`OpenInv`).  Answers the group's run reads, the
context at each system, are those of `env`, so they are the same on both sides
(`asyncJob_withCtx`).
-/

import Ecs.Scheduler.PoolProgress

namespace Ecs

variable {α : Type}

/-- The function `dispatchAsync` hands to `Submit`: the group run on a fresh
buffer from the buffer pool, and then its error, or its drained commands, with
the summary. -/
def asyncJob (env : TickEnv α) (p : ℕ) (group : WorkGroupState) (tick : UInt64) :
    JobResult α :=
  match runWorkGroup env p group tick ⟨[]⟩ true with
  | (summary, some err, _) => ⟨some err, [], some summary⟩
  | (summary, none, buf) => ⟨none, buf.drain.1, some summary⟩

/-- `env` with the context's answers replaced at the two checks of a job's
way through the pool for the group at `p`: in `Submit`'s `select`, and when a
worker takes the job up. -/
def TickEnv.withCtx (env : TickEnv α) (p : ℕ) (e₁ e₂ : Option CtxError) : TickEnv α where
  ctxErr
    | .submit q => if q = p then e₁ else env.ctxErr (.submit q)
    | .execute q => if q = p then e₂ else env.ctxErr (.execute q)
    | c => env.ctxErr c
  run := env.run

section WithCtx

variable (env : TickEnv α) (p : ℕ) (e₁ e₂ : Option CtxError)

theorem runSystems_withCtx (q : ℕ) (policy : ErrorPolicy) (tick : UInt64) :
    ∀ i ds summary (buf : CommandBuffer α),
      runSystems (env.withCtx p e₁ e₂) q policy tick i ds summary buf =
        runSystems env q policy tick i ds summary buf
  | _, [], _, _ => rfl
  | i, desc :: rest, summary, buf => by
    have ih := runSystems_withCtx q policy tick (i + 1) rest
    simp only [runSystems, ih]
    rfl

/-- The group's run reads the context only at its systems, so the job is the
same whatever the two checks answer. -/
theorem asyncJob_withCtx (group : WorkGroupState) (tick : UInt64) :
    asyncJob (env.withCtx p e₁ e₂) p group tick = asyncJob env p group tick := by
  simp only [asyncJob, runWorkGroup, runSystems_withCtx]

/-- With a pool, `dispatchAsync` is `asyncJob` unless the context is done at
`Submit` or at the worker's check. -/
theorem dispatchAsync_withCtx (group : WorkGroupState) (tick : UInt64) :
    dispatchAsync (env.withCtx p e₁ e₂) true p group tick =
      match e₁, e₂ with
      | some e, _ => WorkerPool.errResult e.toError
      | none, some e => WorkerPool.errResult e.toError
      | none, none => asyncJob env p group tick := by
  rw [← asyncJob_withCtx env p e₁ e₂]
  rcases e₁ with _ | e₁ <;> rcases e₂ with _ | e₂ <;> simp [dispatchAsync, asyncJob, TickEnv.withCtx] <;> rfl

end WithCtx

namespace WorkerPool

open State

/-- A step of a run on which `Close` is never called and every function that
returns returns `f`. -/
def Action.OpenWith (f : JobResult α) : Action α → Prop
  | .closeOnce => False
  | .finish _ r | .fnReturns _ r => r = f
  | _ => True

/-- **A job of a pool that was never closed, whose functions return `f`.**
Neither of the pool's channels is closed, the job's function returned nothing
or `f`, and the pool-closed error reaches the job's channel only as `f`. -/
structure OpenInv (f : JobResult α) (s : State α) (j : ℕ) : Prop where
  unclosed : s.closeCall = .notCalled ∧ s.closed = false ∧ s.jobsClosed = false
  fn : (s.jobs j).fnReturned = none ∨ (s.jobs j).fnReturned = some f
  closedErr : errResult .workerPoolClosed ∈ (s.jobs j).waits ++ (s.jobs j).result →
    f = errResult .workerPoolClosed

theorem workerPoolClosed_ne_toError (e : CtxError) : Error.workerPoolClosed ≠ e.toError := by
  cases e <;> decide

namespace OpenInv

variable {f : JobResult α} {s s' : State α} {j : ℕ}

theorem newWorkerPool (f : JobResult α) (size : ℤ) (j : ℕ) :
    OpenInv f (WorkerPool.newWorkerPool size : State α) j where
  unclosed := ⟨rfl, rfl, rfl⟩
  fn := .inl rfl
  closedErr h := by simp [WorkerPool.newWorkerPool, Job.init] at h

theorem setWorker (h : OpenInv f s j) (w : ℕ) (pc : WorkerPc) : OpenInv f (s.setWorker w pc) j :=
  ⟨h.unclosed, h.fn, h.closedErr⟩

/-- A job whose function result stays or becomes `f`, and whose channel gains
the pool-closed error only as `f`, keeps the invariant. -/
theorem setJob (h : OpenInv f s j) (j' : ℕ) {job : Job α}
    (hfn : job.fnReturned = (s.jobs j').fnReturned ∨ job.fnReturned = some f)
    (hch : errResult .workerPoolClosed ∈ job.waits ++ job.result →
      errResult .workerPoolClosed ∈ (s.jobs j').waits ++ (s.jobs j').result ∨
        f = errResult .workerPoolClosed) :
    OpenInv f (s.setJob j' job) j := by
  refine ⟨h.unclosed, ?_, ?_⟩ <;> by_cases hj : j = j' <;>
    simp only [setJob_jobs, Function.update_apply, hj, if_true, if_false]
  · subst hj; rcases hfn with hfn | hfn <;> rw [hfn]; exacts [h.fn, .inr rfl]
  · exact h.fn
  · subst hj; exact fun hm => (hch hm).elim h.closedErr id
  · exact h.closedErr

/-- **Step.** -/
theorem step (h : OpenInv f s j) {a : Action α} (ha : a.OpenWith f) (hs : s.step a = some s') :
    OpenInv f s' j := by
  obtain ⟨hcall, hcl, hjc⟩ := h.unclosed
  cases a <;> simp only [State.step] at hs <;> simp only [Action.OpenWith] at ha <;>
    try subst ha
  case closeJobs | closeWait | selectClosed | sendPanics => simp [hcall, hcl, hjc] at hs
  case wait j' =>
    -- the head of the channel moves to the `Wait`s, or a closed empty channel yields `jobResult{}`
    split at hs <;> [split at hs; cases hs]
    · rename_i hr; cases hs
      exact h.setJob _ (.inl rfl) fun hm => .inl (by simpa [hr] using hm)
    · split at hs <;> cases hs
      exact h.setJob _ (.inl rfl) fun hm => .inl (by simpa [errResult, emptyResult] using hm)
  all_goals (repeat' split at hs) <;> cases hs
  all_goals first
    | exact h.setWorker _ _
    | refine h.setJob _ ?_ ?_
    | refine (h.setWorker _ _).setJob _ ?_ ?_
  all_goals first
    | exact .inl rfl
    | exact .inr rfl
    | exact Or.inl
    | (simp [Job.send, Job.submitReturns, errResult, emptyResult, workerPoolClosed_ne_toError]
       tauto)

theorem run (h : OpenInv f s j) {acts : List (Action α)} (ha : ∀ a ∈ acts, a.OpenWith f)
    (hs : s.run acts = some s') : OpenInv f s' j :=
  run_induction (OpenInv f · j) (Action.OpenWith f) (fun ha h hs => h.step ha hs) ha h hs

/-- On a pool that was never closed, whose functions return `f`, the first
`Wait` on the handle of a job with a function yields `f` or its context's
error. -/
theorem first_wait (size : ℤ) {acts : List (Action α)}
    (hrun : (WorkerPool.newWorkerPool size).run acts = some s) (ha : ∀ a ∈ acts, a.OpenWith f)
    (hnil : (s.jobs j).fnNil = false) {v : JobResult α} (hv : (s.jobs j).waits.head? = some v) :
    v = f ∨ ∃ e : CtxError, v = errResult e.toError := by
  have hd : (s.jobs j).delivered = some v := by
    cases hw : (s.jobs j).waits <;> simp_all [Job.delivered]
  have hi := (newWorkerPool f size j).run ha hrun
  rcases ((jobInv_newWorkerPool size j).run hrun).allowed v hd with
    ⟨-, hf⟩ | ⟨-, rfl | ⟨e, -, he⟩⟩ | ⟨hn, -⟩
  · rcases hi.fn with h | h <;> rw [hf] at h
    · cases h
    · exact .inl (Option.some_inj.1 h)
  · exact .inl (hi.closedErr (List.mem_of_mem_head? hd)).symm
  · exact .inr ⟨e, he⟩
  · simp [hnil] at hn

end OpenInv

end WorkerPool

section Refines

open WorkerPool

/-- **The tick's model of an async job is the pool's.**  On a pool with
workers that is never closed, whose jobs' functions return what `asyncJob`
returns, the values the first `Wait` on a job's handle can yield are exactly
the results `dispatchAsync` gives for some answers of the context in
`Submit`'s `select` and at the worker's check. -/
theorem pool_wait_iff_dispatchAsync (env : TickEnv α) (p : ℕ) (group : WorkGroupState)
    (tick : UInt64) (size : ℤ) (hsize : 0 < size) (j : ℕ) (v : JobResult α) :
    (∃ acts s, (newWorkerPool size).run acts = some s ∧
        (∀ a ∈ acts, a.OpenWith (asyncJob env p group tick)) ∧
        (s.jobs j).fnNil = false ∧ (s.jobs j).waits.head? = some v) ↔
      ∃ e₁ e₂, v = dispatchAsync (env.withCtx p e₁ e₂) true p group tick := by
  constructor
  · rintro ⟨acts, s, hrun, ha, hnil, hv⟩
    rcases OpenInv.first_wait size hrun ha hnil hv with rfl | ⟨e, rfl⟩
    · exact ⟨none, none, by rw [dispatchAsync_withCtx]⟩
    · exact ⟨some e, none, by rw [dispatchAsync_withCtx]⟩
  · have hz : size.toNat ≠ 0 := by omega
    rintro ⟨e₁, e₂, rfl⟩
    rw [dispatchAsync_withCtx]
    -- the job runs; its context is done at the worker's check; or in `Submit`'s `select`
    rcases e₁ with _ | e₁
    rcases e₂ with _ | e₂
    on_goal 1 => refine ⟨[.submit j false, .selectDefault j, .recv 0 j, .execute 0,
      .finish 0 (asyncJob env p group tick), .wait j], ?_⟩
    on_goal 2 => refine ⟨[.submit j false, .selectDefault j, .recv 0 j, .cancel j e₂, .execute 0,
      .wait j], ?_⟩
    on_goal 3 => refine ⟨[.submit j false, .cancel j e₁, .selectCtx j, .wait j], ?_⟩
    all_goals simp only [State.run, State.step, newWorkerPool, Int.lt_toNat, Job.init, ↓reduceIte,
      State.setJob, Bool.false_eq_true, hz, hsize, State.setWorker, Job.send, Job.submitReturns,
      Option.bind_some, Option.some_bind, Function.update_same, Function.update_idem,
      CharP.cast_eq_zero, zero_add, List.nil_append, Option.some.injEq, List.mem_cons,
      List.mem_singleton, Action.OpenWith, forall_eq_or_imp, forall_eq, and_self, true_and,
      exists_eq_left', List.head?_cons, List.not_mem_nil, false_implies, implies_true, and_true]

/-- On a pool of one worker, with a context that stays live, the first `Wait`
yields the group's own job, as `dispatchAsync` does. -/
theorem pool_wait_iff_dispatchAsync_on_live_ctx :
    ∃ acts s, (WorkerPool.newWorkerPool 1 : WorkerPool.State ℕ).run acts = some s ∧
      (∀ a ∈ acts, a.OpenWith (asyncJob ⟨fun _ => none, fun _ _ _ => ⟨[], false, none⟩⟩ 0
        ⟨"A", .async, [], ⟨0, 0⟩, 0, .abort, [], [], [], []⟩ 0)) ∧
      (s.jobs 0).fnNil = false ∧ (s.jobs 0).waits.head? = some (asyncJob
        ⟨fun _ => none, fun _ _ _ => ⟨[], false, none⟩⟩ 0
        ⟨"A", .async, [], ⟨0, 0⟩, 0, .abort, [], [], [], []⟩ 0) :=
  (pool_wait_iff_dispatchAsync _ 0 _ 0 1 (by decide) 0 _).2
    ⟨none, none, by rw [dispatchAsync_withCtx]⟩

end Refines

end Ecs

/-
# Close and Wait cannot deadlock

`workerPool.Close`, `worker`, `execute`, `Submit`, `safeSendJob` and
`jobHandle.Wait`, over the interleavings of `Ecs.Scheduler.Pool`.

`submit_then_wait` says what a `Wait` yields; this module says that one can be
reached.  From every state a run from `newWorkerPool` reaches, whatever the
goroutines did so far, there is a way on.  `Close` closes `p.closed` and
`p.jobs`; each worker finishes the job it holds, closes that job's result
channel and sees `p.closed`, so `p.wg.Wait()` returns with every worker gone
(`close_completes`).  Then each `Submit` still running returns: a `select`
through `p.closed`, a blocked send through the panic of the closed `p.jobs`,
and on the nil pool when its function returns.  The first `Wait` on its handle
then receives (`close_and_wait_complete`).  The model has no fairness, so this
is freedom from deadlock, not a promise that every schedule gets there.

Two facts of every reachable state carry it (`CloseInv`): on a pool with
workers `Close` closes `p.closed` and then `p.jobs` before it waits, and a
`Submit` runs its function itself only on the nil pool and waits in its
`select` or its send only on a pool with workers.  A job's `Submit` only moves
forward (`step_pc`), so a job called before is still called after.
-/

import Ecs.Scheduler.Pool

namespace Ecs

namespace WorkerPool

variable {α : Type}

namespace State

theorem run_append (s : State α) (l₁ l₂ : List (Action α)) :
    s.run (l₁ ++ l₂) = (s.run l₁).bind (·.run l₂) := by
  induction l₁ generalizing s with
  | nil => rfl
  | cons a l₁ ih => cases h : s.step a <;> simp [run_cons, h, ih]

/-- Some run leads from `s` to `s'`. -/
def Reaches (s s' : State α) : Prop := ∃ acts, s.run acts = some s'

theorem Reaches.refl (s : State α) : Reaches s s := ⟨[], rfl⟩

theorem Reaches.trans {s₁ s₂ s₃ : State α} (h₁ : Reaches s₁ s₂) (h₂ : Reaches s₂ s₃) :
    Reaches s₁ s₃ := by
  obtain ⟨l₁, h₁⟩ := h₁
  obtain ⟨l₂, h₂⟩ := h₂
  exact ⟨l₁ ++ l₂, by rw [run_append, h₁]; exact h₂⟩

theorem Reaches.of_step {s s' : State α} {a : Action α} (h : s.step a = some s') :
    Reaches s s' :=
  ⟨[a], by simp [run_cons, h]⟩

/-- **From steps to runs.**  What every allowed step keeps holds after every
run of allowed steps. -/
theorem run_induction (P : State α → Prop) (Q : Action α → Prop)
    (hstep : ∀ {s s' : State α} {a : Action α}, Q a → P s → s.step a = some s' → P s') :
    ∀ {acts : List (Action α)} {s s' : State α}, (∀ a ∈ acts, Q a) → P s →
      s.run acts = some s' → P s'
  | [], _, _, _, h, hs => by cases hs; exact h
  | a :: _, _, _, hq, h, hs => by
    rw [run_cons] at hs
    obtain ⟨t, ht, hs⟩ := Option.bind_eq_some.1 hs
    exact run_induction P Q hstep (fun a' h' => hq a' (.tail _ h')) (hstep (hq a (.head _)) h ht) hs

/-- The pool's own fields, which only `Close` moves. -/
def control (s : State α) : ℕ × Bool × Bool × ClosePc :=
  (s.size, s.closed, s.jobsClosed, s.closeCall)

@[simp] theorem setJob_control (s : State α) (j : ℕ) (job : Job α) :
    (s.setJob j job).control = s.control := rfl

@[simp] theorem setWorker_control (s : State α) (w : ℕ) (pc : WorkerPc) :
    (s.setWorker w pc).control = s.control := rfl

end State

open State

/-! ### What every reachable state keeps -/

/-- **A job's `Submit` only moves forward.**  It is called, selects, sends on
`p.jobs` after a `select` that found nothing, and returns. -/
theorem step_pc {s s' : State α} {a : Action α} (hs : s.step a = some s') (j : ℕ) :
    (s'.jobs j).pc = (s.jobs j).pc ∨ (s.jobs j).pc = .notCalled ∨
      (s'.jobs j).pc = .returned ∨ (s.jobs j).pc = .selecting ∧ (s'.jobs j).pc = .sending := by
  cases a <;> simp only [State.step] at hs <;> (repeat' split at hs) <;> cases hs <;>
    simp only [setJob_jobs, setWorker_jobs, Function.update_apply, true_or] <;>
    (try split_ifs with hj) <;> (try subst hj) <;> first
    | exact .inl rfl
    | exact .inr (.inr (.inl rfl))
    | exact .inr (.inl ‹_›)
    | exact .inr (.inr (.inr ⟨‹_ ∧ _›.1, rfl⟩))

/-- A job called before is called after, whatever runs. -/
theorem Reaches.called {s s' : State α} (h : Reaches s s') {j : ℕ}
    (hj : (s.jobs j).pc ≠ .notCalled) : (s'.jobs j).pc ≠ .notCalled := by
  obtain ⟨acts, h⟩ := h
  refine run_induction (fun t : State α => (t.jobs j).pc ≠ .notCalled) (fun _ => True)
    (fun _ hj ht => ?_) (fun _ _ => trivial) hj h
  rcases step_pc ht j with h' | h' | h' | ⟨-, h'⟩
  · rwa [h']
  · exact absurd h' hj
  all_goals rw [h']; decide

/-- Where a `Submit` may be on a pool of `size` workers: it runs the function
itself only on the nil pool, and selects or sends only on a pool with
workers. -/
def SubmitPc.Fits (size : ℕ) : SubmitPc → Prop
  | .running => size = 0
  | .selecting | .sending => size ≠ 0
  | _ => True

/-- **What `Close` has done, and where a `Submit` can wait.** -/
structure CloseInv (s : State α) : Prop where
  /-- once `once.Do` ran on a pool with workers, `p.closed` is closed -/
  closed : s.closeCall ≠ .notCalled → s.size ≠ 0 → s.closed = true
  /-- once `Close` got past `close(p.jobs)`, `p.jobs` is closed -/
  jobsClosed : s.closeCall = .closedJobs ∨ s.closeCall = .returned → s.size ≠ 0 →
    s.jobsClosed = true
  /-- `Close` stops halfway only on a pool with workers -/
  midway : s.closeCall = .closedSignal ∨ s.closeCall = .closedJobs → s.size ≠ 0
  submits : ∀ j, (s.jobs j).pc.Fits s.size

namespace CloseInv

variable {s s' : State α}

theorem newWorkerPool (size : ℤ) : CloseInv (WorkerPool.newWorkerPool size : State α) where
  closed h := absurd rfl h
  jobsClosed h := by simp [WorkerPool.newWorkerPool] at h
  midway h := by simp [WorkerPool.newWorkerPool] at h
  submits _ := trivial

theorem setWorker (h : CloseInv s) (w : ℕ) (pc : WorkerPc) : CloseInv (s.setWorker w pc) :=
  ⟨h.closed, h.jobsClosed, h.midway, h.submits⟩

/-- A job that moves to where its pool allows it keeps the invariant; a job
that stays, or whose `Submit` returns, always does. -/
theorem setJob (h : CloseInv s) (j : ℕ) {job : Job α} (hpc : job.pc.Fits s.size) :
    CloseInv (s.setJob j job) :=
  ⟨h.closed, h.jobsClosed, h.midway, fun j' => by
    by_cases hj : j' = j
    · subst hj; simpa using hpc
    · simpa [Function.update_noteq hj] using h.submits j'⟩

theorem setJob_pc (h : CloseInv s) (j : ℕ) {job : Job α} (hpc : job.pc = (s.jobs j).pc) :
    CloseInv (s.setJob j job) :=
  h.setJob j (hpc ▸ h.submits j)

/-- **Step.** -/
theorem step (h : CloseInv s) {a : Action α} (hs : s.step a = some s') : CloseInv s' := by
  cases a <;> simp only [State.step] at hs
  case submit j fnNil =>
    split_ifs at hs <;> cases hs <;> refine h.setJob j ?_
    exacts [trivial, ‹_›, ‹_›]
  case selectDefault j =>
    split_ifs at hs with hc; cases hs
    exact h.setJob j (by simpa [SubmitPc.Fits, hc.1] using h.submits j)
  case closeOnce =>
    split_ifs at hs with hc hz <;> cases hs
    · exact ⟨fun _ h' => absurd hz h', fun _ h' => absurd hz h', by simp, h.submits⟩
    · exact ⟨fun _ _ => rfl, by simp, fun _ => hz, h.submits⟩
  case closeJobs =>
    split_ifs at hs with hc; cases hs
    exact ⟨fun _ => h.closed (by simp [hc]), fun _ _ => rfl, fun _ => h.midway (.inl hc),
      h.submits⟩
  case closeWait =>
    split_ifs at hs with hc; cases hs
    exact ⟨fun _ => h.closed (by simp [hc.1]), fun _ => h.jobsClosed (.inl hc.1), by simp,
      h.submits⟩
  all_goals (repeat' split at hs) <;> cases hs
  all_goals first
    | exact h.setJob _ trivial
    | exact h.setJob_pc _ rfl
    | exact h.setWorker _ _
    | exact (h.setWorker _ _).setJob _ trivial
    | exact (h.setWorker _ _).setJob_pc _ rfl

theorem run (h : CloseInv s) {acts : List (Action α)} (hs : s.run acts = some s') :
    CloseInv s' :=
  run_induction CloseInv (fun _ => True) (fun _ h hs => h.step hs) (fun _ _ => trivial) h hs

end CloseInv

/-! ### Each worker can exit once `p.closed` is closed -/

section Exit

variable {t : State α} {w j : ℕ}

/-- Worker `w` can run on from `t` until it has exited, every other worker and
the pool's own fields as they were. -/
def ExitsFrom (t : State α) (w : ℕ) : Prop :=
  ∃ t', Reaches t t' ∧ t'.workers = Function.update t.workers w .exited ∧ t'.control = t.control

theorem ExitsFrom.of_step {t₁ : State α} (a : Action α) (hs : t.step a = some t₁) (pc : WorkerPc)
    (hw : t₁.workers = Function.update t.workers w pc) (hc : t₁.control = t.control)
    (h : ExitsFrom t₁ w) : ExitsFrom t w := by
  obtain ⟨t', hr, hw', hc'⟩ := h
  exact ⟨t', (Reaches.of_step hs).trans hr, by rw [hw', hw, Function.update_idem], hc'.trans hc⟩

/-- An idle worker's `select` takes `<-p.closed`. -/
theorem exitsFrom_idle (hc : t.closed = true) (hw : t.workers w = .idle) : ExitsFrom t w :=
  ⟨t.setWorker w .exited, .of_step (a := .seeClosed w) (by simp [State.step, hw, hc]), rfl, rfl⟩

/-- A worker that has sent closes the job's result channel, and is idle. -/
theorem exitsFrom_sent (hc : t.closed = true) (hw : t.workers w = .sent j) : ExitsFrom t w := by
  have hs := show t.step (.closeResult w) = some _ by simp only [State.step, hw]; rfl
  exact .of_step _ hs .idle rfl rfl (exitsFrom_idle hc (by simp))

/-- The function a worker runs returns, and the worker sends its result. -/
theorem exitsFrom_running (hc : t.closed = true) (hw : t.workers w = .running j) :
    ExitsFrom t w := by
  have hs := show t.step (.finish w emptyResult) = some _ by simp only [State.step, hw]; rfl
  exact .of_step _ hs (.sent j) rfl rfl (exitsFrom_sent hc (by simp : _ = WorkerPc.sent j))

/-- A worker that received a job sends at once or runs the function. -/
theorem exitsFrom_received (hc : t.closed = true) (hw : t.workers w = .received j) :
    ExitsFrom t w := by
  cases hn : (t.jobs j).fnNil
  · cases he : (t.jobs j).ctxErr
    · have hs := show t.step (.execute w) = some _ by
        simp only [State.step, hw, hn, he, Bool.false_eq_true, ↓reduceIte]; rfl
      exact .of_step _ hs (.running j) rfl rfl (exitsFrom_running hc (by simp : _ = WorkerPc.running j))
    · have hs := show t.step (.execute w) = some _ by
        simp only [State.step, hw, hn, he, Bool.false_eq_true, ↓reduceIte]; rfl
      exact .of_step _ hs (.sent j) rfl rfl (exitsFrom_sent hc (by simp : _ = WorkerPc.sent j))
  · have hs := show t.step (.execute w) = some _ by simp only [State.step, hw, hn, ↓reduceIte]; rfl
    exact .of_step _ hs (.sent j) rfl rfl (exitsFrom_sent hc (by simp : _ = WorkerPc.sent j))

theorem exitsFrom (hc : t.closed = true) (w : ℕ) : ExitsFrom t w := by
  cases hw : t.workers w with
  | idle => exact exitsFrom_idle hc hw
  | received j => exact exitsFrom_received hc hw
  | running j => exact exitsFrom_running hc hw
  | sent j => exact exitsFrom_sent hc hw
  | exited => exact ⟨t, .refl t, by rw [← hw, Function.update_eq_self], rfl⟩

/-- Once `p.closed` is closed, the workers below `n` can all exit. -/
theorem exit_below (hc : t.closed = true) : ∀ n, ∃ t', Reaches t t' ∧
    (∀ w < n, t'.workers w = .exited) ∧ t'.control = t.control
  | 0 => ⟨t, .refl t, by simp, rfl⟩
  | n + 1 => by
    obtain ⟨t₁, h₁, hw₁, hc₁⟩ := exit_below hc n
    obtain ⟨t₂, h₂, hw₂, hc₂⟩ := exitsFrom (t := t₁) ((congrArg (·.2.1) hc₁).trans hc) n
    refine ⟨t₂, h₁.trans h₂, fun w hw => ?_, hc₂.trans hc₁⟩
    rw [hw₂, Function.update_apply]
    split_ifs with h
    · rfl
    · exact hw₁ w (by omega)

end Exit

/-! ### `Close`, then every `Submit` and its `Wait` -/

section Complete

variable {size : ℤ} {s : State α} {j : ℕ}

/-- On a pool with workers, `p.jobs` closed, every worker below the size can
exit and `p.wg.Wait()` returns. -/
theorem close_from_closedJobs (hc : s.closeCall = .closedJobs) (hcl : s.closed = true) :
    ∃ s', Reaches s s' ∧ s'.closeCall = .returned := by
  obtain ⟨t, hr, hw, htc⟩ := exit_below hcl s.size
  have hsize : t.size = s.size := congrArg (·.1) htc
  have hcall : t.closeCall = s.closeCall := congrArg (·.2.2.2) htc
  refine ⟨_, hr.trans (.of_step (show t.step .closeWait = some { t with closeCall := .returned } by
    rw [State.step, if_pos ⟨hcall.trans hc, fun w h => hw w (hsize ▸ h)⟩])), rfl⟩

/-- After `close(p.closed)`, `Close` closes `p.jobs` and goes on. -/
theorem close_from_closedSignal (hc : s.closeCall = .closedSignal) (hcl : s.closed = true) :
    ∃ s', Reaches s s' ∧ s'.closeCall = .returned := by
  obtain ⟨s', h, h'⟩ :=
    close_from_closedJobs (s := { s with jobsClosed := true, closeCall := .closedJobs }) rfl hcl
  exact ⟨s', (Reaches.of_step (show s.step .closeJobs =
    some { s with jobsClosed := true, closeCall := .closedJobs } by simp [State.step, hc])).trans h, h'⟩

/-- **`Close` can return**, from every reachable state. -/
theorem close_completes (hr : Reaches (newWorkerPool size) s) :
    ∃ s', Reaches s s' ∧ s'.closeCall = .returned := by
  obtain ⟨acts, hr⟩ := hr
  have hi := (CloseInv.newWorkerPool size).run hr
  cases hc : s.closeCall with
  | returned => exact ⟨s, .refl s, hc⟩
  | closedJobs => exact close_from_closedJobs hc (hi.closed (by simp [hc]) (hi.midway (by simp [hc])))
  | closedSignal =>
    exact close_from_closedSignal hc (hi.closed (by simp [hc]) (hi.midway (by simp [hc])))
  | notCalled =>
    by_cases hz : s.size = 0
    · exact ⟨_, .of_step (show s.step .closeOnce = some { s with closeCall := .returned } by
        simp [State.step, hc, hz]), rfl⟩
    · obtain ⟨s', h, h'⟩ :=
        close_from_closedSignal (s := { s with closed := true, closeCall := .closedSignal }) rfl rfl
      exact ⟨s', (Reaches.of_step (show s.step .closeOnce =
        some { s with closed := true, closeCall := .closedSignal } by simp [State.step, hc, hz])).trans h, h'⟩

/-- After `Close` returned, a `Submit` still running returns: its `select`
takes `<-p.closed`, its blocked send panics on the closed `p.jobs`, and on the
nil pool its function returns. -/
theorem submit_returns (hr : Reaches (newWorkerPool size) s) (hc : s.closeCall = .returned)
    (hj : (s.jobs j).pc ≠ .notCalled) :
    ∃ s', Reaches s s' ∧ (s'.jobs j).pc = .returned ∧ s'.workers = s.workers := by
  obtain ⟨acts, hr⟩ := hr
  have hi := (CloseInv.newWorkerPool size).run hr
  have hfit := hi.submits j
  cases hpc : (s.jobs j).pc with
  | notCalled => exact absurd hpc hj
  | returned => exact ⟨s, .refl s, hpc, rfl⟩
  | selecting =>
    rw [hpc] at hfit
    have hcl := hi.closed (by simp [hc]) hfit
    exact ⟨_, .of_step (show s.step (.selectClosed j) =
      some (s.setJob j ((s.jobs j).submitReturns (errResult .workerPoolClosed))) by
        simp [State.step, hpc, hcl]), by simp [Job.submitReturns], rfl⟩
  | sending =>
    rw [hpc] at hfit
    have hcl := hi.jobsClosed (.inr hc) hfit
    exact ⟨_, .of_step (show s.step (.sendPanics j) =
      some (s.setJob j ((s.jobs j).submitReturns (errResult .workerPoolClosed))) by
        simp [State.step, hpc, hcl]), by simp [Job.submitReturns], rfl⟩
  | running =>
    exact ⟨_, .of_step (show s.step (.fnReturns j emptyResult) =
      some (s.setJob j { (s.jobs j).submitReturns emptyResult with fnReturned := some emptyResult })
        by simp [State.step, hpc]), by simp [Job.submitReturns], rfl⟩

/-- With every worker gone, the first `Wait` on the handle of a `Submit` that
returned receives. -/
theorem wait_receives (hr : Reaches (newWorkerPool size) s) (hw : ∀ w, s.workers w = .exited)
    (hpc : (s.jobs j).pc = .returned) :
    ∃ s', Reaches s s' ∧ (s'.jobs j).pc = .returned ∧ (s'.jobs j).waits ≠ [] := by
  obtain ⟨acts, hr⟩ := hr
  by_cases hnil : (s.jobs j).waits = []
  · rcases ((jobInv_newWorkerPool size j).run hr).wait_ready hpc hnil with h | ⟨w, h⟩
    · obtain ⟨s', hs⟩ := Option.isSome_iff_exists.1 h
      refine ⟨s', .of_step hs, ?_⟩
      simp only [State.step, hpc, if_true] at hs
      split at hs
      · cases hs; simp [hpc]
      · split_ifs at hs; cases hs; simp [hpc]
    · simp [hw] at h
  · exact ⟨s, .refl s, hpc, hnil⟩

/-- **`Close` and `Wait` cannot deadlock.**  From every state a run from
`newWorkerPool` reaches, under any interleaving so far, some run lets `Close`
return with every worker exited; after it, for every job whose `Submit` had
been called, some run lets that `Submit` return and the first `Wait` on its
handle receive. -/
theorem close_and_wait_complete (size : ℤ) (acts : List (Action α)) (s : State α)
    (hrun : (newWorkerPool size).run acts = some s) :
    ∃ acts' s', s.run acts' = some s' ∧ s'.closeCall = .returned ∧
      (∀ w, s'.workers w = .exited) ∧
      ∀ j, (s.jobs j).pc ≠ .notCalled → ∃ acts'' s'', s'.run acts'' = some s'' ∧
        (s''.jobs j).pc = .returned ∧ (s''.jobs j).waits ≠ [] := by
  have h₀ : Reaches (newWorkerPool size) s := ⟨acts, hrun⟩
  obtain ⟨s', ⟨acts', h₁⟩, hc⟩ := close_completes h₀
  have h₁' : Reaches (newWorkerPool size) s' := h₀.trans ⟨acts', h₁⟩
  have hw := ((poolInv_newWorkerPool size).run h₁'.choose_spec).closed hc
  refine ⟨acts', s', h₁, hc, hw, fun j hj => ?_⟩
  obtain ⟨s₂, h₂, hpc, hw₂⟩ := submit_returns h₁' hc (Reaches.called ⟨acts', h₁⟩ hj)
  obtain ⟨s₃, ⟨acts'', h₃⟩, hpc₃, hne⟩ :=
    wait_receives (h₁'.trans h₂) (fun w => (congrFun hw₂ w).trans (hw w)) hpc
  obtain ⟨acts₂, h₂⟩ := h₂
  exact ⟨acts₂ ++ acts'', s₃, by rw [run_append, h₂]; exact h₃, hpc₃, hne⟩

/-- A `Submit` blocked in its send on a pool of one idle worker: `Close` can
return, and the job's `Wait` can then receive. -/
theorem close_and_wait_complete_on_blocked_send :
    ∃ s, (newWorkerPool 1 : State ℕ).run [.submit 0 false, .selectDefault 0] = some s ∧
      (s.jobs 0).pc = .sending ∧ ∃ acts' s', s.run acts' = some s' ∧ s'.closeCall = .returned ∧
        ∃ acts'' s'', s'.run acts'' = some s'' ∧ (s''.jobs 0).waits ≠ [] := by
  obtain ⟨s, hs⟩ : ∃ s, (newWorkerPool 1 : State ℕ).run [.submit 0 false, .selectDefault 0] =
      some s := ⟨_, rfl⟩
  have hpc : ((newWorkerPool 1 : State ℕ).run [.submit 0 false, .selectDefault 0]).map
      (fun s => (s.jobs 0).pc) = some .sending := by decide
  rw [hs, Option.map_some', Option.some_inj] at hpc
  obtain ⟨acts', s', h₁, hc, -, hj⟩ := close_and_wait_complete 1 _ s hs
  obtain ⟨acts'', s'', h₂, -, hw⟩ := hj 0 (by rw [hpc]; decide)
  exact ⟨s, hs, hpc, acts', s', h₁, hc, acts'', s'', h₂, hw⟩

end Complete

end WorkerPool

end Ecs

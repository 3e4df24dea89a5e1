/-
# The tick: running work groups and applying what they defer

`basicScheduler.Tick`, `runWorkGroup`, `dispatchAsync`,
`publishWorkGroupSummary` and `shouldRunTick`; the `CommandBuffer`
(`Push`, `Drain`, `Snapshot`, `Restore`) every system defers into; the
worker pool's `Submit` and `execute`, and `jobHandle.Wait`.

What the code leaves to the outside is one `TickEnv`: what each system run
defers and returns, and what each check of the context sees.  A run is keyed
by its group's position in the tick's order, its own position in the group
and the attempt (first run or retry), so every behaviour of the systems, each
one's own state included, is some environment; statements over every
environment cover them all.  Systems change the world only through `Defer`.
An async group on the worker pool runs beside the synchronized groups; its
job's result is what its run returned, fixed by the environment, and the join
loop reads the results in dispatch order.  A loop of the code that appends to
a local slice is a recursion that returns what it appended.

Each observer call, log of a group's error, dispatch and join is a
`TickEvent`.  Over every environment:

* `tick_world_of_ok`: a tick that returns nil with no logged group error
  applies the commands of the async groups in dispatch order, then those of
  the synchronized groups, each system contributing its last attempt's;
* `tick_group_error_world`: a tick that fails with a work group's error has
  applied exactly the commands of the async jobs it joined;
* `tick_joins_dispatched`: the joined groups are a prefix of the dispatched
  ones, all of them when the tick returns nil, and their summaries are the
  last ones published;
* `runWorkGroup_accounts`: one group's run counts the systems its loop
  reaches, each of them once as executed or skipped (the failed one apart),
  and leaves their final attempts' commands in order after the buffer's own.

`continue_group_leaks_commands`, `async_abort_keeps_joined_commands` and
`sync_abort_skips_join` replay, on concrete configurations, what happens
outside those statements.
-/

import Ecs.Scheduler.Register

namespace Ecs

variable {α : Type}

/-! ### Gates and the command buffer -/

/-- Go's `shouldRunTick`, in `uint64` arithmetic: the sum wraps at `2 ^ 64`. -/
def shouldRunTick (tick : UInt64) (interval : TickInterval) : Bool :=
  if interval.every.toUInt64 = 0 then true
  else (tick + (interval.offset % interval.every).toUInt64) % interval.every.toUInt64 == 0

/-- Go's `CommandBuffer`. -/
structure CommandBuffer (α : Type) where
  commands : List (Command α)

namespace CommandBuffer

/-- Go's `Push`: a `nil` command is dropped. -/
def push (b : CommandBuffer α) : Option (Command α) → CommandBuffer α
  | none => b
  | some cmd => ⟨b.commands ++ [cmd]⟩

/-- Go's `Drain`. -/
def drain (b : CommandBuffer α) : List (Command α) × CommandBuffer α := (b.commands, ⟨[]⟩)

/-- Go's `Snapshot`. -/
def snapshot (b : CommandBuffer α) : ℤ := b.commands.length

/-- Go's `Restore`: a negative snapshot counts as `0`, one at or past the end
changes nothing, and any other truncates. -/
def restore (b : CommandBuffer α) (snapshot : ℤ) : CommandBuffer α :=
  let snapshot := if snapshot < 0 then 0 else snapshot
  if snapshot ≥ b.commands.length then b else ⟨b.commands.take snapshot.toNat⟩

/-- The `Defer` calls of one system run, in order. -/
def deferAll (b : CommandBuffer α) (cmds : List (Option (Command α))) : CommandBuffer α :=
  cmds.foldl push b

@[simp] theorem deferAll_commands (b : CommandBuffer α) (cmds : List (Option (Command α))) :
    (b.deferAll cmds).commands = b.commands ++ cmds.filterMap id := by
  induction cmds generalizing b with
  | nil => simp [deferAll]
  | cons c cmds ih => cases c <;> simp_all [deferAll, push]

/-- Restoring a snapshot drops exactly what was pushed since. -/
theorem restore_snapshot (b : CommandBuffer α) (cmds : List (Command α)) :
    (⟨b.commands ++ cmds⟩ : CommandBuffer α).restore b.snapshot = b := by
  have h : ¬ (b.commands.length : ℤ) < 0 := by omega
  simp only [restore, snapshot, h, if_false, List.length_append, ge_iff_le, Int.ofNat_le,
    Int.toNat_ofNat]
  split_ifs with hl
  · obtain rfl : cmds = [] := List.eq_nil_of_length_eq_zero (by omega)
    simp
  · simp

theorem restore_deferAll (b : CommandBuffer α) (cmds : List (Option (Command α))) :
    (b.deferAll cmds).restore b.snapshot = b := by
  have h := restore_snapshot b (cmds.filterMap id)
  rwa [← deferAll_commands] at h

end CommandBuffer

/-! ### The environment of a tick -/

/-- What one `Run` of a system does: the commands it passes to `Defer`, `nil`
ones included, and the `SystemResult` it returns. -/
structure SystemRun (α : Type) where
  deferred : List (Option (Command α))
  skipped : Bool
  err : Option Error

/-- The first run of a system in a tick, or its retry. -/
inductive Attempt
  | first
  | retry
deriving DecidableEq, Repr

/-- The places the code asks the context whether it is done: before each group
of the tick (`ctx.Err()`), before each system of a group's run (`ctx.Err()`),
when a job is submitted to the pool and when a worker takes it up
(`ctx.Done()`).  A group is named by its position in the tick's order. -/
inductive CtxCheck
  | group (p : ℕ)
  | system (p i : ℕ)
  | submit (p : ℕ)
  | execute (p : ℕ)
deriving DecidableEq, Repr

/-- What `ctx.Err()` returns for a context that is done. -/
inductive CtxError
  | canceled
  | deadlineExceeded
deriving DecidableEq, Repr

/-- The `error` a `CtxError` is. -/
def CtxError.toError : CtxError → Error
  | .canceled => .canceled
  | .deadlineExceeded => .deadlineExceeded

/-- Everything a tick reads from outside the scheduler: the context at each
check, and each system run, by group position, system position and attempt. -/
structure TickEnv (α : Type) where
  ctxErr : CtxCheck → Option CtxError
  run : ℕ → ℕ → Attempt → SystemRun α

/-- The errors that come from a work group rather than from applying a command:
a system's error as `runWorkGroup` wraps it, and the context's. -/
def Error.fromWorkGroup : Error → Bool
  | .systemFailed _ _ => true
  | .canceled => true
  | .deadlineExceeded => true
  | _ => false

@[simp] theorem CtxError.fromWorkGroup_toError (e : CtxError) : e.toError.fromWorkGroup = true := by
  cases e <;> rfl

/-! ### `runWorkGroup` and `dispatchAsync` -/

/-- Go's `workGroupRunSummary`, without `duration`. -/
structure WorkGroupRunSummary where
  id : WorkGroupID
  mode : WorkGroupMode
  async : Bool
  tick : UInt64
  componentReads : List ComponentType
  componentWrites : List ComponentType
  resourceReads : List String
  resourceWrites : List String
  systemsTotal : ℕ
  systemsExecuted : ℕ
  systemsSkipped : ℕ
  err : Option Error
deriving DecidableEq, Repr

/-- Go's `componentSetToSlice` and `stringSetToSlice`: the set's keys, sorted. -/
def setToSlice (set : List String) : List String := set.insertionSort (· ≤ ·)

/-- How the body of `runWorkGroup`'s loop ends for a system whose `RunEvery`
gate passed. -/
inductive SystemOutcome (α : Type)
  | ok (skipped : Bool) (buf : CommandBuffer α)
  | failed (err : Error) (buf : CommandBuffer α)

/-- The body of `runWorkGroup`'s loop for system `i` once its gate passed: the
snapshot, the run, and after an error the retry (under the retry policy) and
the restore. -/
def runSystem (env : TickEnv α) (p : ℕ) (policy : ErrorPolicy) (i : ℕ)
    (desc : SystemDescriptor) (buf : CommandBuffer α) : SystemOutcome α :=
  let snapshot := buf.snapshot
  let result := env.run p i .first
  let buf := buf.deferAll result.deferred
  match result.err with
  | none => .ok result.skipped buf
  | some err =>
    if policy = .retry then
      let result := env.run p i .retry
      let buf := (buf.restore snapshot).deferAll result.deferred
      match result.err with
      | none => .ok result.skipped buf
      | some err => .failed (.systemFailed desc.name err) (buf.restore snapshot)
    else .failed (.systemFailed desc.name err) (buf.restore snapshot)

/-- The loop of `runWorkGroup` from system `i` on. -/
def runSystems (env : TickEnv α) (p : ℕ) (policy : ErrorPolicy) (tick : UInt64) :
    ℕ → List SystemDescriptor → WorkGroupRunSummary → CommandBuffer α →
      WorkGroupRunSummary × Option Error × CommandBuffer α
  | _, [], summary, buf => (summary, none, buf)
  | i, desc :: rest, summary, buf =>
    match env.ctxErr (.system p i) with
    | some e => ({ summary with err := some e.toError }, some e.toError, buf)
    | none =>
      let summary := { summary with systemsTotal := summary.systemsTotal + 1 }
      if !shouldRunTick tick desc.runEvery then
        runSystems env p policy tick (i + 1) rest
          { summary with systemsSkipped := summary.systemsSkipped + 1 } buf
      else
        match runSystem env p policy i desc buf with
        | .ok true buf =>
          runSystems env p policy tick (i + 1) rest
            { summary with systemsSkipped := summary.systemsSkipped + 1 } buf
        | .ok false buf =>
          runSystems env p policy tick (i + 1) rest
            { summary with systemsExecuted := summary.systemsExecuted + 1 } buf
        | .failed err buf => ({ summary with err := some err }, some err, buf)

/-- Go's `runWorkGroup` for the group at position `p`, deferring into `buf`. -/
def runWorkGroup (env : TickEnv α) (p : ℕ) (group : WorkGroupState) (tick : UInt64)
    (buf : CommandBuffer α) (async : Bool) :
    WorkGroupRunSummary × Option Error × CommandBuffer α :=
  runSystems env p group.policy tick 0 group.systems
    { id := group.id, mode := group.mode, async, tick,
      componentReads := setToSlice group.readSet, componentWrites := setToSlice group.writeSet,
      resourceReads := setToSlice group.resourceReads,
      resourceWrites := setToSlice group.resourceWrites,
      systemsTotal := 0, systemsExecuted := 0, systemsSkipped := 0, err := none } buf

/-- Go's `jobResult`. -/
structure JobResult (α : Type) where
  err : Option Error
  commands : List (Command α)
  summary : Option WorkGroupRunSummary

/-- Go's `dispatchAsync`, as the result its handle's `Wait` returns.  Without
a pool the group runs at once; with one, `Submit` and then the worker check
the context before the job runs (the pool is never closed while it is the
scheduler's).  The job's buffer is a fresh one from the buffer pool. -/
def dispatchAsync (env : TickEnv α) (asyncPool : Bool) (p : ℕ) (group : WorkGroupState)
    (tick : UInt64) : JobResult α :=
  if asyncPool then
    match env.ctxErr (.submit p), env.ctxErr (.execute p) with
    | some e, _ => ⟨some e.toError, [], none⟩
    | none, some e => ⟨some e.toError, [], none⟩
    | none, none =>
      match runWorkGroup env p group tick ⟨[]⟩ true with
      | (summary, some err, _) => ⟨some err, [], some summary⟩
      | (summary, none, buf) => ⟨none, buf.drain.1, some summary⟩
  else
    match runWorkGroup env p group tick ⟨[]⟩ true with
    | (summary, err, buf) => ⟨err, if err = none then buf.drain.1 else [], some summary⟩

/-! ### `Tick` -/

/-- What a tick does that can be seen from outside: a dispatch to the pool, a
`Wait` on a job's handle and what it returned, a summary published to the
observer, and a group's error logged. -/
inductive TickEvent (α : Type)
  | dispatch (group : WorkGroupID)
  | wait (group : WorkGroupID) (result : JobResult α)
  | publish (summary : WorkGroupRunSummary)
  | logError (msg : String) (group : WorkGroupID) (err : Error)

/-- The groups dispatched, in order. -/
def dispatched : List (TickEvent α) → List WorkGroupID
  | [] => []
  | .dispatch g :: es => g :: dispatched es
  | .wait _ _ :: es | .publish _ :: es | .logError _ _ _ :: es => dispatched es

/-- The jobs waited for, in order, with what `Wait` returned. -/
def waited : List (TickEvent α) → List (WorkGroupID × JobResult α)
  | [] => []
  | .wait g r :: es => (g, r) :: waited es
  | .dispatch _ :: es | .publish _ :: es | .logError _ _ _ :: es => waited es

/-- The summaries published, in order. -/
def published : List (TickEvent α) → List WorkGroupRunSummary
  | [] => []
  | .publish sm :: es => sm :: published es
  | .dispatch _ :: es | .wait _ _ :: es | .logError _ _ _ :: es => published es

/-- The group errors logged, in order. -/
def loggedErrors : List (TickEvent α) → List (WorkGroupID × Error)
  | [] => []
  | .logError _ g e :: es => (g, e) :: loggedErrors es
  | .dispatch _ :: es | .wait _ _ :: es | .publish _ :: es => loggedErrors es

@[simp] theorem dispatched_append (l₁ l₂ : List (TickEvent α)) :
    dispatched (l₁ ++ l₂) = dispatched l₁ ++ dispatched l₂ := by
  induction l₁ with
  | nil => rfl
  | cons e es ih => cases e <;> simp [dispatched, ih]

@[simp] theorem waited_append (l₁ l₂ : List (TickEvent α)) :
    waited (l₁ ++ l₂) = waited l₁ ++ waited l₂ := by
  induction l₁ with
  | nil => rfl
  | cons e es ih => cases e <;> simp [waited, ih]

@[simp] theorem published_append (l₁ l₂ : List (TickEvent α)) :
    published (l₁ ++ l₂) = published l₁ ++ published l₂ := by
  induction l₁ with
  | nil => rfl
  | cons e es ih => cases e <;> simp [published, ih]

@[simp] theorem loggedErrors_append (l₁ l₂ : List (TickEvent α)) :
    loggedErrors (l₁ ++ l₂) = loggedErrors l₁ ++ loggedErrors l₂ := by
  induction l₁ with
  | nil => rfl
  | cons e es ih => cases e <;> simp [loggedErrors, ih]

/-- What the first loop of `Tick` leaves: the sync buffer, the synchronized
groups that ran without error, the async jobs with their group ids, its
events, and the error it returned with. -/
structure GroupLoopResult (α : Type) where
  buf : CommandBuffer α
  executed : List WorkGroupID
  jobs : List (WorkGroupID × JobResult α)
  events : List (TickEvent α)
  err : Option Error

/-- The first loop of `Tick`, from the group at position `p` on. -/
def groupLoop (env : TickEnv α) (s : Scheduler α) (tick : UInt64) :
    ℕ → List WorkGroupState → CommandBuffer α → GroupLoopResult α
  | _, [], buf => ⟨buf, [], [], [], none⟩
  | p, group :: rest, buf =>
    match env.ctxErr (.group p) with
    | some e => ⟨buf, [], [], [], some e.toError⟩
    | none =>
      if !shouldRunTick tick group.interval then groupLoop env s tick (p + 1) rest buf
      else if group.mode = .async then
        let r := groupLoop env s tick (p + 1) rest buf
        { r with
          jobs := (group.id, dispatchAsync env s.asyncPool p group tick) :: r.jobs
          events := .dispatch group.id :: r.events }
      else
        match runWorkGroup env p group tick buf false with
        | (summary, some err, buf) =>
          if group.policy = .continue then
            let r := groupLoop env s tick (p + 1) rest buf
            { r with events := .logError "work group error" group.id err :: .publish summary :: r.events }
          else ⟨buf, [], [], [.publish summary], some err⟩
        | (summary, none, buf) =>
          let r := groupLoop env s tick (p + 1) rest buf
          { r with executed := group.id :: r.executed, events := .publish summary :: r.events }

/-- What the join loop of `Tick` leaves: the world, the async groups that
succeeded, its events, and the error it returned with. -/
structure JoinLoopResult (α : Type) where
  world : World α
  executed : List WorkGroupID
  events : List (TickEvent α)
  err : Option Error

section Go

variable (deepEqual : Option α → Option α → Bool)

/-- The join loop of `Tick`: each handle waited in dispatch order, its summary
published, and its commands applied when it succeeded. -/
def joinLoop (s : Scheduler α) : List (WorkGroupID × JobResult α) → World α → JoinLoopResult α
  | [], w => ⟨w, [], [], none⟩
  | (g, res) :: rest, w =>
    let joined := TickEvent.wait g res :: (res.summary.map .publish).toList
    match res.err with
    | some err =>
      if (s.groupStates.lookup g).map (·.policy) = some .continue then
        let r := joinLoop s rest w
        { r with events := joined ++ .logError "async work group error" g err :: r.events }
      else ⟨w, [], joined, some err⟩
    | none =>
      match (if !res.commands.isEmpty then w.applyCommands deepEqual (res.commands.map some)
          else (w, none)) with
      | (w, some err) => ⟨w, [], joined, some err⟩
      | (w, none) =>
        let r := joinLoop s rest w
        { r with executed := g :: r.executed, events := joined ++ r.events }

/-- The end of a tick that returns nil: each group that ran without error
records the tick. -/
def setLastRun (tick : UInt64) (executed : List WorkGroupID)
    (groupStates : AList (fun _ : WorkGroupID => WorkGroupState)) :
    AList (fun _ : WorkGroupID => WorkGroupState) :=
  executed.foldl (fun gs id =>
    match gs.lookup id with
    | some state => gs.insert id { state with lastRun := tick }
    | none => gs) groupStates

/-- What a tick returns and leaves: the scheduler with its world, the error,
and the events in order. -/
structure TickOutcome (α : Type) where
  sched : Scheduler α
  err : Option Error
  events : List (TickEvent α)

/-- Go's `Tick`. -/
def Scheduler.tick (env : TickEnv α) (s : Scheduler α) : TickOutcome α :=
  let g := groupLoop env s s.tickIndex 0 s.orderedGroups ⟨[]⟩
  match g.err with
  | some err => ⟨s, some err, g.events⟩
  | none =>
    let j := joinLoop deepEqual s g.jobs s.world
    match j.err with
    | some err => ⟨{ s with world := j.world }, some err, g.events ++ j.events⟩
    | none =>
      let drained := g.buf.drain.1
      match (if !drained.isEmpty then j.world.applyCommands deepEqual (drained.map some)
          else (j.world, none)) with
      | (w, some err) => ⟨{ s with world := w }, some err, g.events ++ j.events⟩
      | (w, none) =>
        ⟨{ s with
            world := w
            groupStates := setLastRun s.tickIndex (g.executed ++ j.executed) s.groupStates
            tickIndex := s.tickIndex + 1 }, none, g.events ++ j.events⟩

end Go

/-! ### Applying commands -/

namespace World

variable {deepEqual : Option α → Option α → Bool}

/-- After a batch that succeeds, the next batch continues from its world. -/
theorem applyCommands_append_of_ok {w w₁ : World α} {l₁ : List (Option (Command α))}
    (h : w.applyCommands deepEqual l₁ = (w₁, none)) (l₂ : List (Option (Command α))) :
    w.applyCommands deepEqual (l₁ ++ l₂) = w₁.applyCommands deepEqual l₂ := by
  induction l₁ generalizing w with
  | nil => cases h; rfl
  | cons c l₁ ih =>
    cases c with
    | none => exact ih h
    | some cmd =>
      rcases hc : w.applyCommand deepEqual cmd with ⟨w', _ | err⟩
      · simp only [applyCommands, List.cons_append, hc] at h ⊢; exact ih h
      · simp [applyCommands, hc] at h

theorem view_error {w : World α} {t : ComponentType} {e : Error} (h : w.view t = .error e) :
    e = .componentNotRegistered := by
  unfold view at h; split at h <;> cases h; rfl

/-- A command fails only with a command's error, never a work group's. -/
theorem applyCommand_not_fromWorkGroup {w : World α} {cmd : Command α} {e : Error}
    (h : (w.applyCommand deepEqual cmd).2 = some e) : e.fromWorkGroup = false := by
  cases cmd with
  | createEntity => simp [applyCommand] at h
  | destroyEntity x =>
    simp only [applyCommand] at h
    split_ifs at h <;> cases h <;> rfl
  | addComponent x c v =>
    simp only [applyCommand] at h
    split_ifs at h
    · cases h; rfl
    · split at h
      · next err hv => cases h; rw [view_error hv]; rfl
      · next store _ =>
        cases store with
        | dense d =>
          simp only [Store.set, Storage.DenseStore.set] at h
          split_ifs at h
        | shared d =>
          simp only [Store.set, Storage.SharedStore.set] at h
          split_ifs at h
  | removeComponent x c =>
    simp only [applyCommand] at h
    split_ifs at h
    · cases h; rfl
    · split at h
      · next err hv => cases h; rw [view_error hv]; rfl
      · cases h

theorem applyCommands_not_fromWorkGroup {w : World α} {l : List (Option (Command α))}
    {e : Error} (h : (w.applyCommands deepEqual l).2 = some e) : e.fromWorkGroup = false := by
  induction l generalizing w with
  | nil => simp [applyCommands] at h
  | cons c l ih =>
    cases c with
    | none => exact ih h
    | some cmd =>
      rcases hc : w.applyCommand deepEqual cmd with ⟨w', _ | err⟩
      · simp only [applyCommands, hc] at h; exact ih h
      · simp only [applyCommands, hc] at h
        cases h
        exact applyCommand_not_fromWorkGroup (by rw [hc])

end World

/-! ### A tick's commands, read group by group -/

/-- The run whose commands a system keeps: its first run when that succeeded,
the retry otherwise. -/
def finalAttempt (env : TickEnv α) (p i : ℕ) : SystemRun α :=
  if (env.run p i .first).err = none then env.run p i .first else env.run p i .retry

/-- The commands the systems of the group at position `p` defer, read system
by system: for each system (with its position) whose `RunEvery` gate
passes, in order, the commands of its final attempt. -/
def systemCommands (env : TickEnv α) (gate : TickInterval → Bool) (p : ℕ)
    (systems : List (ℕ × SystemDescriptor)) : List (Command α) :=
  (systems.filter fun sys => gate sys.2.runEvery).flatMap fun sys =>
    (finalAttempt env p sys.1).deferred.filterMap id

/-- The commands of a tick read group by group: for each async group
(with its position) whose gate passes, in order, its systems' commands; then
the same for the synchronized groups. -/
def tickCommands (env : TickEnv α) (gate : TickInterval → Bool)
    (groups : List (ℕ × WorkGroupState)) : List (Command α) :=
  (groups.filter fun g => gate g.2.interval ∧ g.2.mode = .async).flatMap
      (fun g => systemCommands env gate g.1 g.2.systems.enum) ++
    (groups.filter fun g => gate g.2.interval ∧ g.2.mode ≠ .async).flatMap
      (fun g => systemCommands env gate g.1 g.2.systems.enum)

@[simp] theorem systemCommands_nil (env : TickEnv α) (gate : TickInterval → Bool) (p : ℕ) :
    systemCommands env gate p [] = [] := rfl

@[simp] theorem systemCommands_cons (env : TickEnv α) (gate : TickInterval → Bool) (p i : ℕ)
    (d : SystemDescriptor) (rest : List (ℕ × SystemDescriptor)) :
    systemCommands env gate p ((i, d) :: rest) =
      (if gate d.runEvery then (finalAttempt env p i).deferred.filterMap id else []) ++
        systemCommands env gate p rest := by
  unfold systemCommands; split_ifs with h <;> simp [List.filter_cons, h]

/-- Whether system `i` of the group at position `p` fails once its gate has
passed: its first attempt returns an error and, under the retry policy, so does
its retry. -/
def systemFails (env : TickEnv α) (p : ℕ) (policy : ErrorPolicy) (i : ℕ) : Bool :=
  (env.run p i .first).err.isSome && (policy != .retry || (env.run p i .retry).err.isSome)

/-- The systems a group's run reaches, from system `i` on, counted system by
system: the loop goes on while the context is not done, and stops after a system
whose gate passes and which fails.  The flag says whether such a system stopped
it. -/
def reached (env : TickEnv α) (p : ℕ) (policy : ErrorPolicy) (gate : TickInterval → Bool) :
    ℕ → List SystemDescriptor → ℕ × Bool
  | _, [] => (0, false)
  | i, d :: ds =>
    if env.ctxErr (.system p i) ≠ none then (0, false)
    else if gate d.runEvery && systemFails env p policy i then (1, true)
    else ((reached env p policy gate (i + 1) ds).1 + 1, (reached env p policy gate (i + 1) ds).2)

/-- A system the run counts counts as executed when its gate passes and its
final attempt does not report `Skipped`, and as skipped otherwise. -/
def countsExecuted (env : TickEnv α) (gate : TickInterval → Bool) (p : ℕ)
    (sys : ℕ × SystemDescriptor) : Bool :=
  gate sys.2.runEvery && !(finalAttempt env p sys.1).skipped

/-- A failed system is among the systems reached. -/
theorem one_le_reached {env : TickEnv α} {p : ℕ} {policy : ErrorPolicy}
    {gate : TickInterval → Bool} : ∀ {i : ℕ} {ds : List SystemDescriptor},
    (reached env p policy gate i ds).2 = true → 1 ≤ (reached env p policy gate i ds).1
  | _, [], h => by simp [reached] at h
  | i, d :: ds, h => by
    unfold reached at h ⊢
    split_ifs at h ⊢ <;> simp_all

/-- The loop reaches no more systems than the group has. -/
theorem reached_le_length {env : TickEnv α} {p : ℕ} {policy : ErrorPolicy}
    {gate : TickInterval → Bool} : ∀ (i : ℕ) (ds : List SystemDescriptor),
    (reached env p policy gate i ds).1 ≤ ds.length
  | _, [] => le_rfl
  | i, d :: ds => by
    have : (reached env p policy gate (i + 1) ds).1 ≤ ds.length := reached_le_length (i + 1) ds
    unfold reached
    split_ifs <;> simp [this]

/-! ### One group's run -/

section Run

variable {env : TickEnv α} {p : ℕ} {policy : ErrorPolicy} {tick : UInt64}

/-- A system that ends without error leaves its final attempt's commands. -/
theorem runSystem_ok {i : ℕ} {desc : SystemDescriptor} {buf buf' : CommandBuffer α}
    {skipped : Bool} (h : runSystem env p policy i desc buf = .ok skipped buf') :
    buf'.commands = buf.commands ++ (finalAttempt env p i).deferred.filterMap id := by
  simp only [runSystem] at h
  rcases hf : (env.run p i .first).err with _ | e
  · simp only [hf] at h; cases h; simp [finalAttempt, hf]
  · simp only [hf] at h
    split_ifs at h
    rcases hr : (env.run p i .retry).err with _ | e'
    · simp only [hr] at h
      cases h
      simp [finalAttempt, hf, CommandBuffer.restore_deferAll]
    · simp only [hr] at h; cases h

/-- A system that fails leaves the buffer as it found it. -/
theorem runSystem_failed {i : ℕ} {desc : SystemDescriptor} {buf buf' : CommandBuffer α}
    {e : Error} (h : runSystem env p policy i desc buf = .failed e buf') :
    buf' = buf ∧ e.fromWorkGroup = true := by
  simp only [runSystem] at h
  rcases hf : (env.run p i .first).err with _ | e₁
  · simp only [hf] at h; cases h
  · simp only [hf] at h
    split_ifs at h
    · rcases hr : (env.run p i .retry).err with _ | e₂
      · simp only [hr] at h; cases h
      · simp only [hr] at h
        cases h
        rw [CommandBuffer.restore_deferAll, CommandBuffer.restore_deferAll]
        exact ⟨rfl, rfl⟩
    · cases h
      exact ⟨CommandBuffer.restore_deferAll _ _, rfl⟩

/-- Everything one system's run can do once its gate passed: end with its
final attempt's `Skipped`, or fail and leave the buffer as it was. -/
theorem runSystem_cases (i : ℕ) (desc : SystemDescriptor) (buf : CommandBuffer α) :
    (systemFails env p policy i = false ∧ ∃ buf',
      runSystem env p policy i desc buf = .ok (finalAttempt env p i).skipped buf') ∨
    (systemFails env p policy i = true ∧ ∃ e, runSystem env p policy i desc buf = .failed e buf) := by
  simp only [runSystem, systemFails, finalAttempt]
  rcases hf : (env.run p i .first).err with _ | e₁
  · exact .inl ⟨by simp, buf.deferAll (env.run p i .first).deferred, by simp [hf]⟩
  · by_cases hp : policy = .retry
    · rcases hr : (env.run p i .retry).err with _ | e₂
      · exact .inl ⟨by simp [hp, hr], _, by simp [hp, hr]; rfl⟩
      · refine .inr ⟨by simp [hp, hr], .systemFailed desc.name e₂, ?_⟩
        simp only [hp, hr, if_true]
        rw [CommandBuffer.restore_deferAll, CommandBuffer.restore_deferAll]
    · refine .inr ⟨by simp [hp], .systemFailed desc.name e₁, ?_⟩
      simp only [hp, if_false]
      rw [CommandBuffer.restore_deferAll]

/-- **A group's run that returns no error** leaves in the buffer, after what
was there, the commands of each system whose gate passes, in order: those of
its final attempt. -/
theorem runSystems_ok : ∀ {i : ℕ} {ds : List SystemDescriptor} {sm : WorkGroupRunSummary}
    {buf : CommandBuffer α}, (runSystems env p policy tick i ds sm buf).2.1 = none →
    (runSystems env p policy tick i ds sm buf).2.2.commands =
      buf.commands ++ systemCommands env (shouldRunTick tick) p (ds.enumFrom i)
  | _, [], _, _, _ => by simp [runSystems]
  | i, d :: ds, sm, buf, h => by
    simp only [runSystems] at h ⊢
    rcases hc : env.ctxErr (.system p i) with _ | ce
    · simp only [hc, List.enumFrom_cons, systemCommands_cons] at h ⊢
      by_cases hg : shouldRunTick tick d.runEvery
      · simp only [hg, Bool.not_true, if_true, if_false] at h ⊢
        rcases hr : runSystem env p policy i d buf with ⟨_ | _, buf'⟩ | ⟨e, buf'⟩
        all_goals simp only [hr, reduceIte, Bool.false_eq_true] at h ⊢
        · rw [runSystems_ok h, runSystem_ok hr, List.append_assoc]
        · rw [runSystems_ok h, runSystem_ok hr, List.append_assoc]
        · cases h
      · simp only [hg, Bool.not_false, if_true, if_false, List.nil_append] at h ⊢
        exact runSystems_ok h
    · simp [hc] at h

/-- **A group's run that fails** (the failure the continue policy lets a tick
go on after): its error is a work group's, and the buffer keeps, after what was
there, the commands of the systems before the failing one. -/
theorem runSystems_failed : ∀ {i : ℕ} {ds : List SystemDescriptor} {sm : WorkGroupRunSummary}
    {buf : CommandBuffer α} {e : Error}, (runSystems env p policy tick i ds sm buf).2.1 = some e →
    e.fromWorkGroup = true ∧ ∃ k, (runSystems env p policy tick i ds sm buf).2.2.commands =
      buf.commands ++ systemCommands env (shouldRunTick tick) p ((ds.enumFrom i).take k)
  | _, [], _, _, _, h => by simp [runSystems] at h
  | i, d :: ds, sm, buf, e, h => by
    simp only [runSystems] at h ⊢
    rcases hc : env.ctxErr (.system p i) with _ | ce
    · simp only [hc] at h ⊢
      by_cases hg : shouldRunTick tick d.runEvery
      · simp only [hg, Bool.not_true, if_true, if_false] at h ⊢
        rcases hr : runSystem env p policy i d buf with ⟨_ | _, buf'⟩ | ⟨e', buf'⟩
        all_goals simp only [hr, reduceIte, Bool.false_eq_true] at h ⊢
        · obtain ⟨he, k, hk⟩ := runSystems_failed h
          refine ⟨he, k + 1, ?_⟩
          simp [hk, runSystem_ok hr, hg]
        · obtain ⟨he, k, hk⟩ := runSystems_failed h
          refine ⟨he, k + 1, ?_⟩
          simp [hk, runSystem_ok hr, hg]
        · cases h
          obtain ⟨rfl, he⟩ := runSystem_failed hr
          exact ⟨he, 0, by simp⟩
      · simp only [hg, Bool.not_false, if_true] at h ⊢
        obtain ⟨he, k, hk⟩ := runSystems_failed h
        exact ⟨he, k + 1, by simp [hk, hg]⟩
    · simp only [hc, Option.some.injEq] at h ⊢
      subst h
      exact ⟨ce.fromWorkGroup_toError, 0, by simp⟩

/-- A group's run that returns no error leaves in the buffer, after what was
there, the commands of each of its systems whose gate passes. -/
theorem runWorkGroup_ok {g : WorkGroupState} {buf buf' : CommandBuffer α} {async : Bool}
    {sm : WorkGroupRunSummary} (hr : runWorkGroup env p g tick buf async = (sm, none, buf')) :
    buf'.commands = buf.commands ++ systemCommands env (shouldRunTick tick) p g.systems.enum := by
  unfold runWorkGroup at hr
  have := runSystems_ok (by rw [hr])
  rw [hr] at this
  exact this

/-- A group's run that fails fails with a work group's error. -/
theorem runWorkGroup_failed {g : WorkGroupState} {buf buf' : CommandBuffer α} {async : Bool}
    {sm : WorkGroupRunSummary} {e : Error}
    (hr : runWorkGroup env p g tick buf async = (sm, some e, buf')) : e.fromWorkGroup = true := by
  unfold runWorkGroup at hr
  exact (runSystems_failed (by rw [hr])).1

/-- An async job that succeeded carries its systems' commands. -/
theorem dispatchAsync_ok {pool : Bool} {g : WorkGroupState}
    (h : (dispatchAsync env pool p g tick).err = none) :
    (dispatchAsync env pool p g tick).commands =
      systemCommands env (shouldRunTick tick) p g.systems.enum := by
  unfold dispatchAsync at h ⊢
  split_ifs at h ⊢
  · split at h
    · cases h
    · cases h
    · rcases hr : runWorkGroup env p g tick ⟨[]⟩ true with ⟨sm, _ | err, buf⟩
      all_goals simp only [hr, reduceIte, Bool.false_eq_true] at h ⊢
      · simpa using runWorkGroup_ok hr
      · cases h
  · rcases hr : runWorkGroup env p g tick ⟨[]⟩ true with ⟨sm, err, buf⟩
    simp only [hr] at h ⊢
    subst h
    simpa [CommandBuffer.drain] using runWorkGroup_ok hr

/-- An async job that failed failed with a work group's error, and carries no
commands. -/
theorem dispatchAsync_err {pool : Bool} {g : WorkGroupState} {e : Error}
    (h : (dispatchAsync env pool p g tick).err = some e) :
    (dispatchAsync env pool p g tick).commands = [] ∧ e.fromWorkGroup = true := by
  unfold dispatchAsync at h ⊢
  split_ifs at h ⊢
  · split at h
    · next ce _ => cases h; exact ⟨rfl, ce.fromWorkGroup_toError⟩
    · next ce _ _ => cases h; exact ⟨rfl, ce.fromWorkGroup_toError⟩
    · rcases hr : runWorkGroup env p g tick ⟨[]⟩ true with ⟨sm, _ | err, buf⟩
      all_goals simp only [hr, reduceIte, Bool.false_eq_true] at h ⊢
      · cases h
      · cases h; exact ⟨by simp, runWorkGroup_failed hr⟩
  · rcases hr : runWorkGroup env p g tick ⟨[]⟩ true with ⟨sm, err, buf⟩
    simp only [hr] at h ⊢
    subst h
    exact ⟨by simp, runWorkGroup_failed hr⟩

/-- **The loop of `runWorkGroup`**, from system `i` on: it adds to the total
the systems it reaches; of the systems it counts (all of those, the failed one
apart), those that count as executed to the executed count and the others to
the skipped count; and it leaves in the buffer, after what was there, the
commands of the final attempt of each counted system whose gate passes. -/
theorem runSystems_accounts : ∀ (i : ℕ) (ds : List SystemDescriptor) (sm : WorkGroupRunSummary)
    (buf : CommandBuffer α),
    let R := reached env p policy (shouldRunTick tick) i ds
    let counted := (ds.enumFrom i).take (if R.2 then R.1 - 1 else R.1)
    let r := runSystems env p policy tick i ds sm buf
    r.1.systemsTotal = sm.systemsTotal + R.1 ∧
      r.1.systemsExecuted =
        sm.systemsExecuted + counted.countP (countsExecuted env (shouldRunTick tick) p) ∧
      r.1.systemsSkipped =
        sm.systemsSkipped + counted.countP (fun sys => !countsExecuted env (shouldRunTick tick) p sys) ∧
      r.2.2.commands = buf.commands ++ systemCommands env (shouldRunTick tick) p counted
  | _, [], sm, buf => by simp [reached, runSystems]
  | i, d :: ds, sm, buf => by
    intro R counted r
    set R' := reached env p policy (shouldRunTick tick) (i + 1) ds with hR'
    rcases hc : env.ctxErr (.system p i) with _ | ce
    swap
    · simp [R, counted, r, reached, runSystems, hc]
    -- system `i` is counted and the loop goes on from `sm'` and `buf'`
    have hnext : ∀ (sm' : WorkGroupRunSummary) (buf' : CommandBuffer α),
        R = (R'.1 + 1, R'.2) → r = runSystems env p policy tick (i + 1) ds sm' buf' →
        sm'.systemsTotal = sm.systemsTotal + 1 →
        sm'.systemsExecuted =
          sm.systemsExecuted + (if countsExecuted env (shouldRunTick tick) p (i, d) then 1 else 0) →
        sm'.systemsSkipped =
          sm.systemsSkipped + (if !countsExecuted env (shouldRunTick tick) p (i, d) then 1 else 0) →
        buf'.commands = buf.commands ++ (if shouldRunTick tick d.runEvery then
          (finalAttempt env p i).deferred.filterMap id else []) →
        r.1.systemsTotal = sm.systemsTotal + R.1 ∧
          r.1.systemsExecuted =
            sm.systemsExecuted + counted.countP (countsExecuted env (shouldRunTick tick) p) ∧
          r.1.systemsSkipped = sm.systemsSkipped +
            counted.countP (fun sys => !countsExecuted env (shouldRunTick tick) p sys) ∧
          r.2.2.commands = buf.commands ++ systemCommands env (shouldRunTick tick) p counted := by
      intro sm' buf' hR hr ht he hs hb
      have hpos : R'.2 = true → 1 ≤ R'.1 := one_le_reached
      have hcnt : counted = (i, d) :: (ds.enumFrom (i + 1)).take (if R'.2 then R'.1 - 1 else R'.1) := by
        have : (if R'.2 then R'.1 + 1 - 1 else R'.1 + 1) = (if R'.2 then R'.1 - 1 else R'.1) + 1 := by
          cases h : R'.2 <;> simp [h] at hpos ⊢; omega
        simp only [counted, hR, this, List.enumFrom_cons, List.take_succ_cons]
      obtain ⟨h₁, h₂, h₃, h₄⟩ := runSystems_accounts (i + 1) ds sm' buf'
      simp only [← hR'] at h₁ h₂ h₃ h₄
      rw [hr, hcnt, hR]
      refine ⟨by rw [h₁, ht]; omega, ?_, ?_, ?_⟩
      · simp only [h₂, he, List.countP_cons]; omega
      · simp only [h₃, hs, List.countP_cons]; omega
      · rw [h₄, hb, systemCommands_cons, List.append_assoc]
    cases hg : shouldRunTick tick d.runEvery
    · exact hnext
        { sm with systemsTotal := sm.systemsTotal + 1, systemsSkipped := sm.systemsSkipped + 1 }
        buf (by simp [R, reached, hc, hg])
        (by simp [r, runSystems, hc, hg]) rfl (by simp [countsExecuted, hg])
        (by simp [countsExecuted, hg]) (by simp [hg])
    · rcases @runSystem_cases α env p policy i d buf with ⟨hf, buf', hrs⟩ | ⟨hf, e, hrs⟩
      · have hb := runSystem_ok hrs
        have hR : R = (R'.1 + 1, R'.2) := by simp [R, reached, hc, hg, hf]
        cases hsk : (finalAttempt env p i).skipped
        · exact hnext
            { sm with systemsTotal := sm.systemsTotal + 1, systemsExecuted := sm.systemsExecuted + 1 }
            buf' hR
            (by simp [r, runSystems, hc, hg, hrs, hsk]) rfl
            (by simp [countsExecuted, hg, hsk]) (by simp [countsExecuted, hg, hsk]) (by simp [hb, hg])
        · exact hnext
            { sm with systemsTotal := sm.systemsTotal + 1, systemsSkipped := sm.systemsSkipped + 1 }
            buf' hR
            (by simp [r, runSystems, hc, hg, hrs, hsk]) rfl
            (by simp [countsExecuted, hg, hsk]) (by simp [countsExecuted, hg, hsk]) (by simp [hb, hg])
      · have hR : R = (1, true) := by simp [R, reached, hc, hg, hf]
        simp [counted, hR, r, runSystems, hc, hg, hrs]

/-- **A group's run.**  For every group, tick, initial buffer and
behaviour of its systems, `runWorkGroup` counts in `systemsTotal` the systems
its loop reaches before it stops; it counts each of them once as executed or
skipped, the failed one apart when a system's error stopped the loop (a system
whose retry succeeded is counted once, by its retry's result); and its buffer
is the initial one followed, in system order, by the commands of the final
attempt of each counted system. -/
theorem runWorkGroup_accounts (env : TickEnv α) (p : ℕ) (group : WorkGroupState) (tick : UInt64)
    (buf : CommandBuffer α) (async : Bool) :
    let R := reached env p group.policy (shouldRunTick tick) 0 group.systems
    let counted := group.systems.enum.take (if R.2 then R.1 - 1 else R.1)
    let r := runWorkGroup env p group tick buf async
    r.1.systemsTotal = R.1 ∧
      r.1.systemsExecuted + r.1.systemsSkipped = (if R.2 then R.1 - 1 else R.1) ∧
      r.1.systemsExecuted = counted.countP (countsExecuted env (shouldRunTick tick) p) ∧
      r.2.2.commands = buf.commands ++ systemCommands env (shouldRunTick tick) p counted := by
  intro R counted r
  obtain ⟨h₁, h₂, h₃, h₄⟩ := @runSystems_accounts α env p group.policy tick 0 group.systems
    { id := group.id, mode := group.mode, async, tick,
      componentReads := setToSlice group.readSet, componentWrites := setToSlice group.writeSet,
      resourceReads := setToSlice group.resourceReads,
      resourceWrites := setToSlice group.resourceWrites,
      systemsTotal := 0, systemsExecuted := 0, systemsSkipped := 0, err := none } buf
  simp only [Nat.zero_add] at h₁ h₂ h₃
  have hlen : counted.length = if R.2 then R.1 - 1 else R.1 := by
    have : R.1 ≤ group.systems.length := reached_le_length 0 group.systems
    simp only [counted, List.length_take, List.enum_length]
    split_ifs <;> omega
  have hsplit : counted.length = counted.countP (countsExecuted env (shouldRunTick tick) p) +
      counted.countP (fun sys => !countsExecuted env (shouldRunTick tick) p sys) := by
    simpa using List.length_eq_countP_add_countP (countsExecuted env (shouldRunTick tick) p) counted
  have hex : r.1.systemsExecuted = counted.countP (countsExecuted env (shouldRunTick tick) p) := h₂
  have hsk : r.1.systemsSkipped =
      counted.countP (fun sys => !countsExecuted env (shouldRunTick tick) p sys) := h₃
  exact ⟨h₁, by rw [hex, hsk, ← hsplit, hlen], hex, h₄⟩

end Run

/-! ### The two loops of `Tick` -/

section Loops

variable {env : TickEnv α} {s : Scheduler α} {tick : UInt64}

/-- Everything one turn of the first loop can do, by the branch it takes: a
cancelled context, a closed gate, an async dispatch, or a synchronized run that
succeeds, fails under the continue policy, or fails under another. -/
theorem groupLoop_cons_cases (group : WorkGroupState) (rest : List WorkGroupState) (p : ℕ)
    (buf : CommandBuffer α) :
    let r := groupLoop env s tick (p + 1) rest
    (∃ ce : CtxError,
      groupLoop env s tick p (group :: rest) buf = ⟨buf, [], [], [], some ce.toError⟩) ∨
    (shouldRunTick tick group.interval = false ∧
      groupLoop env s tick p (group :: rest) buf = r buf) ∨
    (shouldRunTick tick group.interval = true ∧ group.mode = .async ∧
      groupLoop env s tick p (group :: rest) buf =
      { r buf with
        jobs := (group.id, dispatchAsync env s.asyncPool p group tick) :: (r buf).jobs
        events := .dispatch group.id :: (r buf).events }) ∨
    (∃ sm buf', shouldRunTick tick group.interval = true ∧ group.mode ≠ .async ∧
      runWorkGroup env p group tick buf false = (sm, none, buf') ∧
      groupLoop env s tick p (group :: rest) buf =
      { r buf' with
        executed := group.id :: (r buf').executed
        events := .publish sm :: (r buf').events }) ∨
    (∃ sm buf' err, shouldRunTick tick group.interval = true ∧ group.mode ≠ .async ∧
      runWorkGroup env p group tick buf false = (sm, some err, buf') ∧
      groupLoop env s tick p (group :: rest) buf =
      { r buf' with
        events := .logError "work group error" group.id err :: .publish sm :: (r buf').events }) ∨
    (∃ sm buf' err, runWorkGroup env p group tick buf false = (sm, some err, buf') ∧
      groupLoop env s tick p (group :: rest) buf = ⟨buf', [], [], [.publish sm], some err⟩) := by
  intro r
  rcases hc : env.ctxErr (.group p) with _ | ce
  · cases hg : shouldRunTick tick group.interval
    · exact .inr (.inl ⟨rfl, by simp [r, groupLoop, hc, hg]⟩)
    by_cases hm : group.mode = .async
    · exact .inr (.inr (.inl ⟨rfl, hm, by simp [r, groupLoop, hc, hg, hm]⟩))
    rcases hr : runWorkGroup env p group tick buf false with ⟨sm, _ | err, buf'⟩
    · exact .inr (.inr (.inr (.inl ⟨sm, buf', rfl, hm, rfl, by simp [r, groupLoop, hc, hg, hm, hr]⟩)))
    by_cases hp : group.policy = .continue
    · exact .inr (.inr (.inr (.inr (.inl
        ⟨sm, buf', err, rfl, hm, rfl, by simp [r, groupLoop, hc, hg, hm, hr, hp]⟩))))
    · exact .inr (.inr (.inr (.inr (.inr
        ⟨sm, buf', err, rfl, by simp [r, groupLoop, hc, hg, hm, hr, hp]⟩))))
  · exact .inl ⟨ce, by simp [groupLoop, hc]⟩

/-- The first loop dispatches exactly the jobs it returns and waits for none;
a job that failed carries no commands. -/
theorem groupLoop_events (groups : List WorkGroupState) : ∀ (p : ℕ) (buf : CommandBuffer α),
    dispatched (groupLoop env s tick p groups buf).events =
        (groupLoop env s tick p groups buf).jobs.map Prod.fst ∧
      waited (groupLoop env s tick p groups buf).events = [] ∧
      ∀ j ∈ (groupLoop env s tick p groups buf).jobs, j.2.err ≠ none → j.2.commands = [] := by
  induction groups with
  | nil => intro p buf; simp [groupLoop, dispatched, waited]
  | cons group rest ih =>
    intro p buf
    rcases groupLoop_cons_cases group rest p buf with
      ⟨ce, he⟩ | ⟨-, he⟩ | ⟨-, -, he⟩ | ⟨sm, buf', -, -, -, he⟩ | ⟨sm, buf', err, -, -, -, he⟩ |
      ⟨sm, buf', err, -, he⟩ <;> rw [he]
    · simp [dispatched, waited]
    · exact ih _ _
    · obtain ⟨ih₁, ih₂, ih₃⟩ := ih (p + 1) buf
      simp only [dispatched, waited, ih₁, ih₂, List.map_cons, List.mem_cons, forall_eq_or_imp,
        true_and]
      refine ⟨fun hn => ?_, ih₃⟩
      obtain ⟨e, hj⟩ := Option.ne_none_iff_exists'.1 hn
      exact (dispatchAsync_err hj).1
    · obtain ⟨ih₁, ih₂, ih₃⟩ := ih (p + 1) buf'
      simp only [dispatched, waited, ih₁, ih₂, true_and]
      exact ih₃
    · obtain ⟨ih₁, ih₂, ih₃⟩ := ih (p + 1) buf'
      simp only [dispatched, waited, ih₁, ih₂, true_and]
      exact ih₃
    · simp [dispatched, waited]

/-- **The first loop run to its end** has dispatched, in order, every async
group whose gate passes; when it logged no error, the sync buffer holds, after
what it held, the commands of every synchronized group whose gate passes, in
order. -/
theorem groupLoop_ok (groups : List WorkGroupState) : ∀ (p : ℕ) (buf : CommandBuffer α),
    (groupLoop env s tick p groups buf).err = none →
    (groupLoop env s tick p groups buf).jobs =
        ((groups.enumFrom p).filter fun g =>
          shouldRunTick tick g.2.interval ∧ g.2.mode = .async).map
          (fun g => (g.2.id, dispatchAsync env s.asyncPool g.1 g.2 tick)) ∧
      (loggedErrors (groupLoop env s tick p groups buf).events = [] →
        (groupLoop env s tick p groups buf).buf.commands = buf.commands ++
          ((groups.enumFrom p).filter fun g =>
            shouldRunTick tick g.2.interval ∧ g.2.mode ≠ .async).flatMap
            (fun g => systemCommands env (shouldRunTick tick) g.1 g.2.systems.enum)) := by
  induction groups with
  | nil => intro p buf _; simp [groupLoop]
  | cons group rest ih =>
    intro p buf h
    simp only [List.enumFrom_cons, List.filter_cons]
    rcases groupLoop_cons_cases group rest p buf with
      ⟨ce, he⟩ | ⟨hg, he⟩ | ⟨hg, hm, he⟩ | ⟨sm, buf', hg, hm, hr, he⟩ |
      ⟨sm, buf', err, hg, hm, hr, he⟩ | ⟨sm, buf', err, -, he⟩ <;> rw [he] at h ⊢
    · cases h
    · simpa [hg] using ih _ _ h
    · obtain ⟨ih₁, ih₂⟩ := ih _ _ h
      refine ⟨by simp [hg, hm, ih₁], fun hl => ?_⟩
      simpa [hg, hm] using ih₂ (by simpa [loggedErrors] using hl)
    · obtain ⟨ih₁, ih₂⟩ := ih _ _ (by simpa using h)
      refine ⟨by simp [hg, hm, ih₁], fun hl => ?_⟩
      have := ih₂ (by simpa [loggedErrors] using hl)
      simp only [hg, hm, ne_eq, not_false_eq_true, and_self, decide_True, reduceIte,
        List.flatMap_cons] at this ⊢
      rw [this, runWorkGroup_ok hr, List.append_assoc]
    · obtain ⟨ih₁, -⟩ := ih _ _ (by simpa using h)
      exact ⟨by simp [hg, hm, ih₁], fun hl => by simp [loggedErrors] at hl⟩
    · cases h

variable (deepEqual : Option α → Option α → Bool)

/-- The join loop's test for commands to apply changes nothing:
`ApplyCommands` of no command succeeds and keeps the world. -/
theorem applyCommands_if_nonempty (w : World α) (cmds : List (Command α)) :
    (if !cmds.isEmpty then w.applyCommands deepEqual (cmds.map some) else (w, none)) =
      w.applyCommands deepEqual (cmds.map some) := by
  cases cmds <;> rfl

/-- Everything one turn of the join loop can do: a failed job under the
continue policy or another, or a job that succeeded whose commands fail or
apply. -/
theorem joinLoop_cons_cases (g : WorkGroupID) (res : JobResult α)
    (rest : List (WorkGroupID × JobResult α)) (w : World α) :
    let r := joinLoop deepEqual s rest
    let joined := TickEvent.wait g res :: (res.summary.map .publish).toList
    (∃ err, res.err = some err ∧ joinLoop deepEqual s ((g, res) :: rest) w =
      { r w with events := joined ++ .logError "async work group error" g err :: (r w).events }) ∨
    (∃ err, res.err = some err ∧ joinLoop deepEqual s ((g, res) :: rest) w = ⟨w, [], joined, some err⟩) ∨
    (∃ w' err, res.err = none ∧ w.applyCommands deepEqual (res.commands.map some) = (w', some err) ∧
      joinLoop deepEqual s ((g, res) :: rest) w = ⟨w', [], joined, some err⟩) ∨
    (∃ w', res.err = none ∧ w.applyCommands deepEqual (res.commands.map some) = (w', none) ∧
      joinLoop deepEqual s ((g, res) :: rest) w =
        { r w' with executed := g :: (r w').executed, events := joined ++ (r w').events }) := by
  intro r joined
  rcases he : res.err with _ | err
  · rcases ha : w.applyCommands deepEqual (res.commands.map some) with ⟨w', _ | err⟩
    · exact .inr (.inr (.inr ⟨w', rfl, rfl, by
        simp only [joinLoop, he]; rw [applyCommands_if_nonempty, ha]⟩))
    · exact .inr (.inr (.inl ⟨w', err, rfl, rfl, by
        simp only [joinLoop, he]; rw [applyCommands_if_nonempty, ha]⟩))
  · by_cases hp : (s.groupStates.lookup g).map (·.policy) = some .continue
    · exact .inl ⟨err, rfl, by simp [r, joined, joinLoop, he, hp]⟩
    · exact .inr (.inl ⟨err, rfl, by simp [joined, joinLoop, he, hp]⟩)

@[simp] theorem dispatched_publishes (o : Option WorkGroupRunSummary) :
    dispatched ((o.map TickEvent.publish).toList : List (TickEvent α)) = [] := by cases o <;> rfl

@[simp] theorem waited_publishes (o : Option WorkGroupRunSummary) :
    waited ((o.map TickEvent.publish).toList : List (TickEvent α)) = [] := by cases o <;> rfl

@[simp] theorem published_publishes (o : Option WorkGroupRunSummary) :
    published ((o.map TickEvent.publish).toList : List (TickEvent α)) = o.toList := by
  cases o <;> rfl

@[simp] theorem loggedErrors_publishes (o : Option WorkGroupRunSummary) :
    loggedErrors ((o.map TickEvent.publish).toList : List (TickEvent α)) = [] := by
  cases o <;> rfl

theorem filterMap_summary_cons (g : WorkGroupID) (res : JobResult α)
    (l : List (WorkGroupID × JobResult α)) :
    ((g, res) :: l).filterMap (·.2.summary) = res.summary.toList ++ l.filterMap (·.2.summary) := by
  cases h : res.summary <;> simp [h]

/-- The join loop waits for a prefix of the jobs, in order, all of them when
it returns no error; it publishes the summary of each job it waited for, and
dispatches nothing. -/
theorem joinLoop_events (jobs : List (WorkGroupID × JobResult α)) : ∀ w : World α,
    dispatched (joinLoop deepEqual s jobs w).events = [] ∧
      waited (joinLoop deepEqual s jobs w).events <+: jobs ∧
      ((joinLoop deepEqual s jobs w).err = none →
        waited (joinLoop deepEqual s jobs w).events = jobs) ∧
      published (joinLoop deepEqual s jobs w).events =
        (waited (joinLoop deepEqual s jobs w).events).filterMap (·.2.summary) := by
  induction jobs with
  | nil => intro w; simp [joinLoop, dispatched, waited, published]
  | cons job rest ih =>
    obtain ⟨g, res⟩ := job
    intro w
    rcases joinLoop_cons_cases deepEqual (s := s) g res rest w with
      ⟨err, -, he⟩ | ⟨err, -, he⟩ | ⟨w', err, -, -, he⟩ | ⟨w', -, -, he⟩ <;> rw [he]
    · obtain ⟨i₁, i₂, i₃, i₄⟩ := ih w
      simpa [dispatched, waited, published, i₁, i₂, i₄, filterMap_summary_cons] using i₃
    · simp [dispatched, waited, published, filterMap_summary_cons]
    · simp [dispatched, waited, published, filterMap_summary_cons]
    · obtain ⟨i₁, i₂, i₃, i₄⟩ := ih w'
      simpa [dispatched, waited, published, i₁, i₂, i₄, filterMap_summary_cons] using i₃

/-- **What the join loop applies.**  When it ends without error, or with a
work group's error, it has applied, in order, the commands of the jobs it
waited for (a failed job carrying none). -/
theorem joinLoop_world (jobs : List (WorkGroupID × JobResult α))
    (hjobs : ∀ j ∈ jobs, j.2.err ≠ none → j.2.commands = []) : ∀ w : World α,
    ((joinLoop deepEqual s jobs w).err = none ∨
      ∃ e, (joinLoop deepEqual s jobs w).err = some e ∧ e.fromWorkGroup = true) →
    w.applyCommands deepEqual
        (((waited (joinLoop deepEqual s jobs w).events).flatMap (·.2.commands)).map some) =
      ((joinLoop deepEqual s jobs w).world, none) := by
  induction jobs with
  | nil => intro w _; simp [joinLoop, waited]; rfl
  | cons job rest ih =>
    obtain ⟨g, res⟩ := job
    intro w h
    have hrest := ih (fun j hj => hjobs j (List.mem_cons_of_mem _ hj))
    rcases joinLoop_cons_cases deepEqual (s := s) g res rest w with
      ⟨err, he, hl⟩ | ⟨err, he, hl⟩ | ⟨w', err, -, ha, hl⟩ | ⟨w', -, ha, hl⟩ <;> rw [hl] at h ⊢
    · have hc : res.commands = [] := hjobs _ (List.mem_cons_self _ _) (by simp [he])
      simpa [waited, hc] using hrest w h
    · have hc : res.commands = [] := hjobs _ (List.mem_cons_self _ _) (by simp [he])
      simp [waited, hc]; rfl
    · simp only [Option.some.injEq, exists_eq_left', reduceCtorEq, false_or] at h
      exact absurd (World.applyCommands_not_fromWorkGroup (by rw [ha])) (by simp [h])
    · simp only [List.cons_append, waited, List.append_eq, waited_append, waited_publishes,
        List.nil_append, List.flatMap_cons, List.map_append]
      rw [World.applyCommands_append_of_ok ha]
      exact hrest w' h

/-- A join loop that ends without error and logs no error waited only for
jobs that succeeded. -/
theorem joinLoop_ok_nolog (jobs : List (WorkGroupID × JobResult α)) : ∀ w : World α,
    (joinLoop deepEqual s jobs w).err = none →
    loggedErrors (joinLoop deepEqual s jobs w).events = [] → ∀ j ∈ jobs, j.2.err = none := by
  induction jobs with
  | nil => intro w _ _; simp
  | cons job rest ih =>
    obtain ⟨g, res⟩ := job
    intro w h hl
    rcases joinLoop_cons_cases deepEqual (s := s) g res rest w with
      ⟨err, he, he'⟩ | ⟨err, he, he'⟩ | ⟨w', err, he, ha, he'⟩ | ⟨w', he, ha, he'⟩ <;>
      rw [he'] at h hl
    · simp [loggedErrors] at hl
    · cases h
    · cases h
    · simp only [List.cons_append, loggedErrors, List.append_eq, loggedErrors_append,
        loggedErrors_publishes, List.nil_append] at hl
      exact List.forall_mem_cons.2 ⟨he, ih w' h hl⟩

end Loops

/-! ### What a tick applies and publishes -/

section Tick

variable (deepEqual : Option α → Option α → Bool)

/-- Everything `Tick` can do, by where it stops: in the first loop, in the join
loop, or after both, where the drained sync buffer is applied. -/
theorem tick_cases (env : TickEnv α) (s : Scheduler α) {g : GroupLoopResult α}
    {j : JoinLoopResult α} (hg : groupLoop env s s.tickIndex 0 s.orderedGroups ⟨[]⟩ = g)
    (hj : joinLoop deepEqual s g.jobs s.world = j) :
    (g.err ≠ none ∧ s.tick deepEqual env = ⟨s, g.err, g.events⟩) ∨
    (g.err = none ∧ j.err ≠ none ∧
      s.tick deepEqual env = ⟨{ s with world := j.world }, j.err, g.events ++ j.events⟩) ∨
    (g.err = none ∧ j.err = none ∧ (s.tick deepEqual env).events = g.events ++ j.events ∧
      j.world.applyCommands deepEqual (g.buf.commands.map some) =
        ((s.tick deepEqual env).sched.world, (s.tick deepEqual env).err)) := by
  subst hg hj
  unfold Scheduler.tick
  dsimp only
  split
  · next err he => exact .inl ⟨by simp [he], by rw [he]⟩
  · next he =>
    split
    · next err hj => exact .inr (.inl ⟨he, by simp [hj], by rw [hj]⟩)
    · next hj =>
      refine .inr (.inr ⟨he, hj, ?_, ?_⟩) <;>
        rw [applyCommands_if_nonempty] <;> split <;> simp_all [CommandBuffer.drain]

/-- **Joins and summaries.**  The groups a tick joins
are, in order, a prefix of those it dispatched, and all of them when the tick
returns nil; the summaries of the joined jobs are the last ones published, in
join order. -/
theorem tick_joins_dispatched (env : TickEnv α) (s : Scheduler α) :
    (waited (s.tick deepEqual env).events).map Prod.fst <+:
        dispatched (s.tick deepEqual env).events ∧
      (waited (s.tick deepEqual env).events).filterMap (·.2.summary) <:+
        published (s.tick deepEqual env).events ∧
      ((s.tick deepEqual env).err = none →
        (waited (s.tick deepEqual env).events).map Prod.fst =
          dispatched (s.tick deepEqual env).events) := by
  obtain ⟨gd, gw, -⟩ := @groupLoop_events _ env s s.tickIndex
    s.orderedGroups 0 ⟨[]⟩
  obtain ⟨jd, jw, jok, jp⟩ := joinLoop_events deepEqual (s := s)
    (groupLoop env s s.tickIndex 0 s.orderedGroups ⟨[]⟩).jobs s.world
  rcases tick_cases deepEqual env s rfl rfl with ⟨hg, he⟩ | ⟨-, hj, he⟩ | ⟨-, hj, hev, -⟩
  · rw [he]; simp [gw, hg]
  · rw [he]
    simp only [waited_append, dispatched_append, published_append, gw, gd, jd, jp,
      List.nil_append, List.append_nil]
    exact ⟨jw.map _, List.suffix_append _ _, fun h => absurd h hj⟩
  · rw [hev]
    simp only [waited_append, dispatched_append, published_append, gw, gd, jd, jp, jok hj,
      List.nil_append, List.append_nil]
    exact ⟨List.prefix_refl _, List.suffix_append _ _, fun _ => trivial⟩

/-- An async group `a` on the pool, then a synchronized group `b` failing under
the abort policy: the tick returns `b`'s error having dispatched `a` without
waiting for it, and publishes only `b`'s summary. -/
theorem sync_abort_skips_join :
    let s := (newScheduler none : Scheduler ℕ).registerAll
      [⟨"a", .async, [some ⟨"a1", [], [], [], ⟨0, 0⟩, true⟩], ⟨0, 0⟩, .abort⟩,
       ⟨"b", .synchronized, [some ⟨"b1", [], [], [], ⟨0, 0⟩, false⟩], ⟨0, 0⟩, .abort⟩]
    let env : TickEnv ℕ := ⟨fun _ => none, fun p _ _ =>
      if p = 0 then ⟨[], false, none⟩ else ⟨[], false, some (.system "boom")⟩⟩
    (s.tick (· == ·) env).err = some (.systemFailed "b1" (.system "boom")) ∧
      dispatched (s.tick (· == ·) env).events = ["a"] ∧
      (waited (s.tick (· == ·) env).events).map Prod.fst = [] ∧
      (published (s.tick (· == ·) env).events).map (·.id) = ["b"] := by
  decide

/-- **A tick that fails in a work group.**  When a tick
returns a work group's error (a system's, or the context's), the world it
leaves is the world before with exactly the commands of the async jobs it
waited for applied, in dispatch order, and none of a synchronized group's.
When the failure comes in the first loop (a synchronized group aborts, or the
context is done between groups), the tick waits for no job and leaves the
scheduler, its world included, as it was. -/
theorem tick_group_error_world (env : TickEnv α) (s : Scheduler α) {e : Error}
    (h : (s.tick deepEqual env).err = some e) (he : e.fromWorkGroup = true) :
    s.world.applyCommands deepEqual
        (((waited (s.tick deepEqual env).events).flatMap (·.2.commands)).map some) =
      ((s.tick deepEqual env).sched.world, none) ∧
    ((groupLoop env s s.tickIndex 0 s.orderedGroups ⟨[]⟩).err ≠ none →
      waited (s.tick deepEqual env).events = [] ∧ (s.tick deepEqual env).sched = s) := by
  obtain ⟨-, gw, gj⟩ := @groupLoop_events _ env s s.tickIndex
    s.orderedGroups 0 ⟨[]⟩
  rcases tick_cases deepEqual env s rfl rfl with ⟨-, ht⟩ | ⟨hg, -, ht⟩ | ⟨-, hj, hev, ha⟩
  · rw [ht]
    exact ⟨by simp [gw]; rfl, fun _ => ⟨gw, rfl⟩⟩
  · rw [ht] at h ⊢
    exact ⟨by simpa [gw] using joinLoop_world deepEqual _ gj s.world (.inr ⟨e, h, he⟩),
      fun hne => absurd hg hne⟩
  · rw [h] at ha
    exact absurd (World.applyCommands_not_fromWorkGroup (by rw [ha])) (by simp [he])

/-- Two async groups on the pool, `a` deferring a create and `b` failing under
the abort policy: the tick fails with `b`'s error and the world has `a`'s
entity, though a group's error was returned. -/
theorem async_abort_keeps_joined_commands :
    let s := (newScheduler none : Scheduler ℕ).registerAll
      [⟨"a", .async, [some ⟨"a1", [], [], [], ⟨0, 0⟩, true⟩], ⟨0, 0⟩, .abort⟩,
       ⟨"b", .async, [some ⟨"b1", [], [], [], ⟨0, 0⟩, true⟩], ⟨0, 0⟩, .abort⟩]
    let env : TickEnv ℕ := ⟨fun _ => none, fun p _ _ =>
      if p = 0 then ⟨[some .createEntity], false, none⟩ else ⟨[], false, some (.system "boom")⟩⟩
    (s.tick (· == ·) env).err = some (.systemFailed "b1" (.system "boom")) ∧
      s.world.registry.isAlive ⟨0, 1⟩ = false ∧
      (s.tick (· == ·) env).sched.world.registry.isAlive ⟨0, 1⟩ = true := by
  decide

/-- The same tick: `a`'s create is the only command applied. -/
theorem tick_group_error_world_on_async_abort :
    let s := (newScheduler none : Scheduler ℕ).registerAll
      [⟨"a", .async, [some ⟨"a1", [], [], [], ⟨0, 0⟩, true⟩], ⟨0, 0⟩, .abort⟩,
       ⟨"b", .async, [some ⟨"b1", [], [], [], ⟨0, 0⟩, true⟩], ⟨0, 0⟩, .abort⟩]
    let env : TickEnv ℕ := ⟨fun _ => none, fun p _ _ =>
      if p = 0 then ⟨[some .createEntity], false, none⟩ else ⟨[], false, some (.system "boom")⟩⟩
    (s.tick (· == ·) env).err = some (.systemFailed "b1" (.system "boom")) ∧
      (Error.systemFailed "b1" (.system "boom")).fromWorkGroup = true ∧
      s.world.applyCommands (· == ·)
          (((waited (s.tick (· == ·) env).events).flatMap (·.2.commands)).map some) =
        ((s.tick (· == ·) env).sched.world, none) ∧
      ((groupLoop env s s.tickIndex 0 s.orderedGroups ⟨[]⟩).err ≠ none →
        waited (s.tick (· == ·) env).events = [] ∧ (s.tick (· == ·) env).sched = s) := by
  intro s env
  have h : (s.tick (· == ·) env).err = some (.systemFailed "b1" (.system "boom")) := by decide
  exact ⟨h, rfl, tick_group_error_world _ env s h rfl⟩

/-- **A tick that returns nil with no group error logged** applies, in this
order, the commands of every async group whose gate passes, in dispatch order,
then those of every synchronized group whose gate passes, in the group order;
each system whose `RunEvery` gate passes contributes the commands of its final
attempt. -/
theorem tick_world_of_ok (env : TickEnv α) (s : Scheduler α)
    (h : (s.tick deepEqual env).err = none)
    (hlog : loggedErrors (s.tick deepEqual env).events = []) :
    s.world.applyCommands deepEqual
        ((tickCommands env (shouldRunTick s.tickIndex) s.orderedGroups.enum).map some) =
      ((s.tick deepEqual env).sched.world, none) := by
  set g := groupLoop env s s.tickIndex 0 s.orderedGroups ⟨[]⟩ with hgdef
  set j := joinLoop deepEqual s g.jobs s.world with hjdef
  obtain ⟨-, -, gj⟩ := @groupLoop_events _ env s s.tickIndex
    s.orderedGroups 0 ⟨[]⟩
  obtain ⟨-, -, jok, -⟩ := joinLoop_events deepEqual (s := s) g.jobs s.world
  rcases tick_cases deepEqual env s hgdef.symm hjdef.symm with
    ⟨hg, ht⟩ | ⟨-, hj, ht⟩ | ⟨hg, hj, hev, ha⟩
  · rw [ht] at h; exact absurd h hg
  · rw [ht] at h; exact absurd h hj
  rw [hev, loggedErrors_append, List.append_eq_nil] at hlog
  obtain ⟨hjobs, hbuf⟩ := groupLoop_ok s.orderedGroups 0 ⟨[]⟩ hg
  have hall := joinLoop_ok_nolog deepEqual g.jobs s.world hj hlog.2
  have hw := joinLoop_world deepEqual g.jobs gj s.world (.inl hj)
  rw [jok hj] at hw
  have hasync : g.jobs.flatMap (·.2.commands) =
      (s.orderedGroups.enum.filter fun g =>
        shouldRunTick s.tickIndex g.2.interval ∧ g.2.mode = .async).flatMap
        (fun g => systemCommands env (shouldRunTick s.tickIndex) g.1 g.2.systems.enum) := by
    rw [hjobs, List.flatMap_map]
    refine List.flatMap_congr fun q hq => dispatchAsync_ok ?_
    exact hall _ (by rw [hjobs]; exact List.mem_map_of_mem _ hq)
  rw [h] at ha
  unfold tickCommands
  rw [List.map_append, ← hasync, World.applyCommands_append_of_ok hw, ← ha, hbuf hlog.1]
  rfl

/-- A synchronized group `g` under the continue policy whose first system
defers a create and whose second fails: the tick returns nil and logs `g`'s
error, yet the create is applied. -/
theorem continue_group_leaks_commands :
    let s : Scheduler ℕ := (newScheduler none).registerAll
      [⟨"g", .synchronized, [some ⟨"s1", [], [], [], ⟨0, 0⟩, false⟩,
        some ⟨"s2", [], [], [], ⟨0, 0⟩, false⟩], ⟨0, 0⟩, .continue⟩]
    let env : TickEnv ℕ := ⟨fun _ => none, fun _ i _ =>
      if i = 0 then ⟨[some .createEntity], false, none⟩ else ⟨[], false, some (.system "boom")⟩⟩
    (s.tick (· == ·) env).err = none ∧
      loggedErrors (s.tick (· == ·) env).events = [("g", .systemFailed "s2" (.system "boom"))] ∧
      s.world.registry.isAlive ⟨0, 1⟩ = false ∧
      (s.tick (· == ·) env).sched.world.registry.isAlive ⟨0, 1⟩ = true := by
  decide

end Tick


/-! ### What a tick writes to the tables -/

/-- `setLastRun` records the tick in the states of the groups it names and
changes nothing else. -/
theorem lookup_setLastRun (tick : UInt64) (executed : List WorkGroupID) :
    ∀ (gs : AList (fun _ : WorkGroupID => WorkGroupState)) (g : WorkGroupID),
      (setLastRun tick executed gs).lookup g =
        (gs.lookup g).map (fun st => if g ∈ executed then { st with lastRun := tick } else st) := by
  induction executed with
  | nil => intro gs g; simp [setLastRun]
  | cons id ex ih =>
    intro gs g
    simp only [setLastRun, List.foldl_cons] at ih ⊢
    rw [ih]
    by_cases hg : g = id
    · subst hg
      rcases hl : gs.lookup g with _ | st <;> simp [hl]
    · rcases hl : gs.lookup id with _ | st <;> simp [hl, hg, AList.lookup_insert_ne hg]

/-- A tick writes only the world, the index, and the group states through
`setLastRun`. -/
theorem tick_sched (deepEqual : Option α → Option α → Bool) (env : TickEnv α)
    (s : Scheduler α) :
    ∃ w ex t, (s.tick deepEqual env).sched =
      { s with
        world := w
        groupStates := setLastRun s.tickIndex ex s.groupStates
        tickIndex := t } := by
  unfold Scheduler.tick
  dsimp only
  split
  · exact ⟨s.world, [], s.tickIndex, rfl⟩
  · split
    · exact ⟨_, [], s.tickIndex, rfl⟩
    · split
      · exact ⟨_, [], s.tickIndex, rfl⟩
      · exact ⟨_, _, _, rfl⟩

end Ecs

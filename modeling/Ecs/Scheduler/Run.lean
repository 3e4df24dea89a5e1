/-
# Runs of scheduler calls, and what a tick applies after any of them

The calls a program makes, one after another, on a scheduler and directly on
its world: `RegisterWorkGroup`, the builder's `WithSyncOrder`,
`WithErrorPolicy` and `WithAsyncWorkers`, `Tick`, and the world's own
`RegisterComponent` and `ApplyCommands`.

The tick index is a `uint64` that only a tick returning nil increments:
`tickIndex_run` says it is the number of such ticks so far, modulo `2 ^ 64`.
While that number `T` stays below `2 ^ 64 - 2 ^ 32`, `shouldRunTick` at the
index is the gate `Every = 0 ∨ (T + Offset mod Every) mod Every = 0`
(`shouldRunTick_eq_intervalGate`), and with `tick_world_of_ok` this gives
`tick_applies_deferred_in_order`: after any run, a tick that returns nil with no
group error logged applies the async groups' commands in dispatch order and
then the synchronized groups', each gated at `T`.  `tick_gate_wraps` replays a
run of `2 ^ 64 - 1` ticks after which the index wraps inside the gate's sum and
a group runs where the gate read over the naturals says it does not.

Go's `Run(ctx, steps, dt)` is `Scheduler.runSteps`, its ticks one after
another until the first that fails, whose error it returns.

`RegisterWorkGroup` is the only call that checks access, so what a tick relies
on has to survive every other call: a tick changes a group only in `lastRun`,
`WithErrorPolicy` only in `policy`, and the registration invariant reads
neither (`RegInv.of_relabel`, `RegInv.run`).  So the groups any tick runs never
conflict (`orderedGroups_access_disjoint`): an async group writes nothing, two
groups share no component or resource write, and neither reads a resource the
other writes.

The policy a tick reads is the one stored with the group, resolved when it
registers and again by each `WithErrorPolicy` call for its id, from the
current one.  `errorPolicy_run` says what that leaves: the table holds no
abort policy, a group runs under abort only while no policy is configured for
it, and a group whose policy is not abort keeps it for good; a later
`WithErrorPolicy`, abort or not, does not change it.
-/

import Ecs.Scheduler.Tick

namespace Ecs

variable {α : Type}

/-- A call on the scheduler, or directly on its world. -/
inductive SchedulerOp (α : Type)
  | registerWorkGroup (cfg : WorkGroupConfig)
  | withSyncOrder (order : List WorkGroupID)
  | withErrorPolicy (id : WorkGroupID) (policy : ErrorPolicy)
  | withAsyncWorkers (count : ℤ)
  | tick (env : TickEnv α)
  | world (op : WorldOp α)

/-- Whether a call is a `Tick`. -/
def SchedulerOp.isTick : SchedulerOp α → Bool
  | .tick _ => true
  | _ => false

namespace Scheduler

variable (deepEqual : Option α → Option α → Bool)

/-- One call and the error it returns; the builder's calls return none. -/
def step (s : Scheduler α) : SchedulerOp α → Scheduler α × Option Error
  | .registerWorkGroup cfg => s.registerWorkGroup cfg
  | .withSyncOrder order => (s.withSyncOrder order, none)
  | .withErrorPolicy id policy => (s.withErrorPolicy id policy, none)
  | .withAsyncWorkers count => (s.withAsyncWorkers count, none)
  | .tick env => ((s.tick deepEqual env).sched, (s.tick deepEqual env).err)
  | .world op => ({ s with world := (s.world.step deepEqual op).1 }, (s.world.step deepEqual op).2)

/-- A run of calls. -/
def run (s : Scheduler α) : List (SchedulerOp α) → Scheduler α
  | [] => s
  | op :: ops => (s.step deepEqual op).1.run ops

/-- How many calls of a run were ticks that returned nil. -/
def nilTicks (s : Scheduler α) : List (SchedulerOp α) → ℕ
  | [] => 0
  | op :: ops =>
    (if op.isTick ∧ (s.step deepEqual op).2 = none then 1 else 0) +
      (s.step deepEqual op).1.nilTicks ops

end Scheduler

/-- The interval gate read over the naturals: `Every = 0`, or
`(T + Offset mod Every) mod Every = 0`. -/
def intervalGate (T : ℕ) (interval : TickInterval) : Bool :=
  interval.every = 0 || (T + (interval.offset % interval.every).toNat) % interval.every.toNat == 0

/-- While the sum stays below `2 ^ 64`, `shouldRunTick` at the index `T` is
the gate over the naturals. -/
theorem shouldRunTick_eq_intervalGate {T : ℕ} (hT : T + 2 ^ 32 ≤ 2 ^ 64) :
    shouldRunTick (UInt64.ofNat T) = intervalGate T := by
  funext interval
  have he : interval.every.toUInt64 = 0 ↔ interval.every = 0 := by
    rw [UInt64.eq_iff_toNat_eq, UInt32.eq_iff_toNat_eq]; rfl
  have ho : (interval.offset % interval.every).toNat < 2 ^ 32 := UInt32.toNat_lt' _
  have hs : (UInt64.ofNat T + (interval.offset % interval.every).toUInt64).toNat =
      T + (interval.offset % interval.every).toNat := by
    rw [UInt64.toNat_add', UInt64.toNat_ofNat', UInt32.toNat_toUInt64,
      Nat.mod_eq_of_lt (by omega : T < 2 ^ 64), Nat.mod_eq_of_lt (by omega)]
  unfold shouldRunTick intervalGate
  by_cases h0 : interval.every = 0
  · rw [if_pos (he.2 h0)]; simp [h0]
  · have h₁ : (UInt64.ofNat T + (interval.offset % interval.every).toUInt64) %
        interval.every.toUInt64 == 0 ↔
        (T + (interval.offset % interval.every).toNat) % interval.every.toNat = 0 := by
      rw [beq_iff_eq, UInt64.eq_iff_toNat_eq, UInt64.toNat_mod, hs, UInt32.toNat_toUInt64]; rfl
    simp only [he, h0, if_false, decide_False, Bool.false_or]
    exact Bool.eq_iff_iff.2 (h₁.trans (by simp))

namespace Scheduler

variable (deepEqual : Option α → Option α → Bool)

/-- A tick moves the index on by one exactly when it returns nil. -/
theorem tick_tickIndex (env : TickEnv α) (s : Scheduler α) :
    (s.tick deepEqual env).sched.tickIndex =
      if (s.tick deepEqual env).err = none then s.tickIndex + 1 else s.tickIndex := by
  unfold Scheduler.tick
  dsimp only
  split
  · simp
  · split
    · simp
    · split <;> simp_all

/-- Only a tick that returns nil moves the index. -/
theorem step_tickIndex (s : Scheduler α) (op : SchedulerOp α) :
    (s.step deepEqual op).1.tickIndex =
      if op.isTick ∧ (s.step deepEqual op).2 = none then s.tickIndex + 1 else s.tickIndex := by
  cases op with
  | registerWorkGroup cfg =>
    rcases registerWorkGroup_cases s cfg with ⟨-, he⟩ | ⟨-, -, acc, -, -, he⟩ <;>
      simp only [step] <;> rw [he] <;> simp [addGroup, SchedulerOp.isTick]
  | withErrorPolicy id policy =>
    simp only [step, withErrorPolicy]; split <;> simp [SchedulerOp.isTick]
  | tick env => simp [step, tick_tickIndex, SchedulerOp.isTick]
  | _ => simp [step, withSyncOrder, withAsyncWorkers, SchedulerOp.isTick]

/-- **The tick index** after a run is the number of its ticks that returned
nil, modulo `2 ^ 64`, added to the index it started from. -/
theorem tickIndex_run (s : Scheduler α) (ops : List (SchedulerOp α)) :
    (s.run deepEqual ops).tickIndex = s.tickIndex + UInt64.ofNat (s.nilTicks deepEqual ops) := by
  induction ops generalizing s with
  | nil => simp [run, nilTicks]
  | cons op ops ih =>
    have h₀ : UInt64.ofNat 0 = 0 := rfl
    have h₁ : UInt64.ofNat 1 = 1 := rfl
    rw [run, nilTicks, ih, step_tickIndex, UInt64.ofNat_add]
    split_ifs <;> simp [h₀, h₁, add_assoc]

end Scheduler

/-- **The command sequence of a tick.**  After any run of
calls from a new scheduler with `T` ticks that returned nil, `T` below
`2 ^ 64 - 2 ^ 32`, a tick that returns nil and logs no group error applies,
in this order, the commands of each async group whose gate passes at `T`, in
dispatch order, then those of each synchronized group whose gate passes at
`T`, in the group order; a system whose `RunEvery` gate passes at `T`
contributes the commands of its final attempt, the retry's when its first run
failed. -/
theorem tick_applies_deferred_in_order (deepEqual : Option α → Option α → Bool)
    (world : Option (World α)) (ops : List (SchedulerOp α)) (env : TickEnv α)
    (hT : (newScheduler world).nilTicks deepEqual ops + 2 ^ 32 ≤ 2 ^ 64) :
    let s := (newScheduler world).run deepEqual ops
    let T := (newScheduler world).nilTicks deepEqual ops
    (s.tick deepEqual env).err = none → loggedErrors (s.tick deepEqual env).events = [] →
      s.world.applyCommands deepEqual
          ((tickCommands env (intervalGate T) s.orderedGroups.enum).map some) =
        ((s.tick deepEqual env).sched.world, none) := by
  intro s T h hlog
  have hi : s.tickIndex = UInt64.ofNat T := by
    rw [Scheduler.tickIndex_run]; exact zero_add _
  rw [← shouldRunTick_eq_intervalGate hT, ← hi]
  exact tick_world_of_ok deepEqual env s h hlog

/-- An async group `a` and a synchronized group `g` with `Every = 2`, each of
whose one system defers a create, after one tick that returned nil: at
`T = 1` the gate is open for `a` and closed for `g`, so the next tick returns
nil, logs nothing, and applies `a`'s create alone. -/
theorem tick_applies_deferred_in_order_on_create :
    let ops : List (SchedulerOp ℕ) :=
      [.registerWorkGroup ⟨"a", .async, [some ⟨"s", [], [], [], ⟨0, 0⟩, true⟩], ⟨0, 0⟩, .abort⟩,
       .registerWorkGroup ⟨"g", .synchronized, [some ⟨"t", [], [], [], ⟨0, 0⟩, false⟩],
        ⟨2, 0⟩, .abort⟩,
       .tick ⟨fun _ => none, fun _ _ _ => ⟨[some .createEntity], false, none⟩⟩]
    let env : TickEnv ℕ := ⟨fun _ => none, fun _ _ _ => ⟨[some .createEntity], false, none⟩⟩
    let s := (newScheduler none).run (· == ·) ops
    let T := (newScheduler none).nilTicks (· == ·) ops
    T + 2 ^ 32 ≤ 2 ^ 64 ∧ (s.tick (· == ·) env).err = none ∧
      loggedErrors (s.tick (· == ·) env).events = [] ∧
      (tickCommands env (intervalGate T) s.orderedGroups.enum).length = 1 ∧
      s.world.applyCommands (· == ·)
          ((tickCommands env (intervalGate T) s.orderedGroups.enum).map some) =
        ((s.tick (· == ·) env).sched.world, none) := by
  intro ops env s T
  have hT : T + 2 ^ 32 ≤ 2 ^ 64 := by decide
  have h : (s.tick (· == ·) env).err = none := by decide
  have hlog : loggedErrors (s.tick (· == ·) env).events = [] := by decide
  exact ⟨hT, h, hlog, by decide, tick_applies_deferred_in_order _ none ops env hT h hlog⟩

/-! ### Ticks with no group to run -/

namespace Scheduler

variable (deepEqual : Option α → Option α → Bool)

theorem run_append (s : Scheduler α) (l₁ l₂ : List (SchedulerOp α)) :
    s.run deepEqual (l₁ ++ l₂) = (s.run deepEqual l₁).run deepEqual l₂ := by
  induction l₁ generalizing s with
  | nil => rfl
  | cons op ops ih => exact ih _

theorem nilTicks_append (s : Scheduler α) (l₁ l₂ : List (SchedulerOp α)) :
    s.nilTicks deepEqual (l₁ ++ l₂) =
      s.nilTicks deepEqual l₁ + (s.run deepEqual l₁).nilTicks deepEqual l₂ := by
  induction l₁ generalizing s with
  | nil => simp [nilTicks, run]
  | cons op ops ih => simp only [List.cons_append, List.append_eq, nilTicks, run, ih]; omega

/-- A tick with no group to run returns nil and only moves the index. -/
theorem tick_of_orderedGroups_nil (env : TickEnv α) (s : Scheduler α)
    (h : s.orderedGroups = []) :
    s.tick deepEqual env = ⟨{ s with tickIndex := s.tickIndex + 1 }, none, []⟩ := by
  simp [Scheduler.tick, h, groupLoop, joinLoop, setLastRun, CommandBuffer.drain]

/-- Ticks with no group to run: each returns nil. -/
theorem run_idle_ticks (env : TickEnv α) (n : ℕ) : ∀ s : Scheduler α, s.orderedGroups = [] →
    s.run deepEqual (List.replicate n (.tick env)) =
        { s with tickIndex := s.tickIndex + UInt64.ofNat n } ∧
      s.nilTicks deepEqual (List.replicate n (.tick env)) = n := by
  induction n with
  | zero => intro s _; simp [run, nilTicks]
  | succ n ih =>
    intro s h
    have hstep : s.step deepEqual (.tick env) = ({ s with tickIndex := s.tickIndex + 1 }, none) := by
      simp [step, tick_of_orderedGroups_nil deepEqual env s h]
    obtain ⟨ih₁, ih₂⟩ := ih { s with tickIndex := s.tickIndex + 1 } h
    refine ⟨?_, ?_⟩
    · rw [List.replicate_succ, run, hstep, ih₁, UInt64.ofNat_add, add_assoc, add_comm 1]; rfl
    · rw [List.replicate_succ, nilTicks, hstep, ih₂]; simp [SchedulerOp.isTick]; omega

end Scheduler

/-- After `2 ^ 64 - 1` ticks that returned nil, a synchronized group `g` with
`Every = 3`, `Offset = 1` is registered and its system defers a create: the
next tick returns nil, logs nothing, and applies the create, though the gate
over the naturals at `T = 2 ^ 64 - 1` is closed (`2 ^ 64 mod 3 = 1`) so that its command
sequence is empty.  The index `2 ^ 64 - 1` plus the offset wraps to `0`. -/
theorem tick_gate_wraps :
    let idle : TickEnv ℕ := ⟨fun _ => none, fun _ _ _ => ⟨[], false, none⟩⟩
    let ops : List (SchedulerOp ℕ) := List.replicate (2 ^ 64 - 1) (.tick idle) ++
      [.registerWorkGroup ⟨"g", .synchronized, [some ⟨"s", [], [], [], ⟨0, 0⟩, false⟩],
        ⟨3, 1⟩, .abort⟩]
    let env : TickEnv ℕ := ⟨fun _ => none, fun _ _ _ => ⟨[some .createEntity], false, none⟩⟩
    let s := (newScheduler none).run (· == ·) ops
    (newScheduler none).nilTicks (· == ·) ops = 2 ^ 64 - 1 ∧
      (s.tick (· == ·) env).err = none ∧ loggedErrors (s.tick (· == ·) env).events = [] ∧
      tickCommands env (intervalGate (2 ^ 64 - 1)) s.orderedGroups.enum = [] ∧
      s.world.registry.isAlive ⟨0, 1⟩ = false ∧
      (s.tick (· == ·) env).sched.world.registry.isAlive ⟨0, 1⟩ = true := by
  intro idle ops env s
  obtain ⟨h₁, h₂⟩ := Scheduler.run_idle_ticks (· == ·) idle (2 ^ 64 - 1)
    (newScheduler none : Scheduler ℕ) rfl
  have hs : s = ({ (newScheduler none : Scheduler ℕ) with
      tickIndex := 0 + UInt64.ofNat (2 ^ 64 - 1) }).run (· == ·)
      [.registerWorkGroup ⟨"g", .synchronized, [some ⟨"s", [], [], [], ⟨0, 0⟩, false⟩],
        ⟨3, 1⟩, .abort⟩] := by
    simp only [s, ops, Scheduler.run_append, h₁]
    rfl
  have hn : (newScheduler none : Scheduler ℕ).nilTicks (· == ·) ops = 2 ^ 64 - 1 := by
    simp only [ops, Scheduler.nilTicks_append, h₂, h₁]
    rfl
  rw [hs]
  exact ⟨hn, by decide⟩

/-! ### Go's `Run` -/

namespace Scheduler

variable (deepEqual : Option α → Option α → Bool)

/-- The loop of Go's `Run` from its `i`-th tick on, with `n` ticks left. -/
def runStepsFrom (env : ℕ → TickEnv α) : ℕ → ℕ → Scheduler α → Scheduler α × Option Error
  | _, 0, s => (s, none)
  | i, n + 1, s =>
    match (s.tick deepEqual (env i)).err with
    | some err => ((s.tick deepEqual (env i)).sched, some err)
    | none => runStepsFrom env (i + 1) n (s.tick deepEqual (env i)).sched

/-- Go's `Run(ctx, steps, dt)`: `steps` calls of `Tick`, the `i`-th seeing the
environment `env i`; the first error stops the loop and is returned. -/
def runSteps (s : Scheduler α) (env : ℕ → TickEnv α) (steps : ℤ) : Scheduler α × Option Error :=
  runStepsFrom deepEqual env 0 steps.toNat s

end Scheduler

/-! ### The group order over a run -/

/-- What the group order reads of the tables: `registrationOrder` lists each
registered group once, and each state is stored under its own id. -/
structure Scheduler.OrderInv (s : Scheduler α) : Prop where
  nodup : s.registrationOrder.Nodup
  mem : ∀ g, g ∈ s.registrationOrder ↔ g ∈ s.groupStates
  id : ∀ g st, s.groupStates.lookup g = some st → st.id = g

namespace Scheduler

variable (deepEqual : Option α → Option α → Bool)

theorem orderInv_newScheduler (world : Option (World α)) : (newScheduler world).OrderInv :=
  ⟨List.nodup_nil, by simp [newScheduler], by simp [newScheduler]⟩

theorem mem_setLastRun {tick : UInt64} {ex : List WorkGroupID}
    {gs : AList (fun _ : WorkGroupID => WorkGroupState)} {g : WorkGroupID} :
    g ∈ setLastRun tick ex gs ↔ g ∈ gs := by
  rw [← AList.lookup_isSome, ← AList.lookup_isSome, lookup_setLastRun]
  cases gs.lookup g <;> rfl

/-- Every call keeps the tables the group order reads consistent. -/
theorem OrderInv.step {s : Scheduler α} (h : s.OrderInv) (op : SchedulerOp α) :
    (s.step deepEqual op).1.OrderInv := by
  cases op with
  | registerWorkGroup cfg =>
    simp only [Scheduler.step]
    rcases registerWorkGroup_cases s cfg with ⟨-, he⟩ | ⟨-, hid, acc, -, -, he⟩ <;> rw [he]
    · exact ⟨h.nodup, h.mem, h.id⟩
    · refine ⟨List.nodup_append.2 ⟨h.nodup, List.nodup_singleton _,
        List.disjoint_singleton.2 fun hm => hid ((h.mem _).1 hm)⟩, fun g => ?_, fun g st hg => ?_⟩
      · simp [addGroup, AList.mem_insert, h.mem, or_comm]
      · rw [show _ = _ from lookup_addGroup] at hg
        split_ifs at hg with he
        · cases hg; exact he.symm
        · exact h.id g st hg
  | withErrorPolicy id policy =>
    simp only [Scheduler.step, withErrorPolicy]
    split
    · next state hl =>
      have hmem : id ∈ s.groupStates := AList.lookup_isSome.1 (by simp [hl])
      refine ⟨h.nodup, fun g => ?_, fun g st hg => ?_⟩
      · rw [AList.mem_insert, h.mem]
        exact ⟨fun hm => .inr hm, fun hm => hm.elim (fun he => he ▸ hmem) fun hm => hm⟩
      · rw [lookup_insert_ite] at hg
        by_cases he : g = id
        · rw [if_pos he] at hg; cases hg; exact (h.id _ _ hl).trans he.symm
        · rw [if_neg he] at hg; exact h.id g st hg
    · exact ⟨h.nodup, h.mem, h.id⟩
  | tick env =>
    obtain ⟨w, ex, t, he⟩ := tick_sched deepEqual env s
    simp only [Scheduler.step]
    rw [he]
    refine ⟨h.nodup, fun g => (h.mem g).trans mem_setLastRun.symm, fun g st hg => ?_⟩
    rw [lookup_setLastRun] at hg
    obtain ⟨st₀, hl, rfl⟩ := Option.map_eq_some'.1 hg
    split_ifs <;> exact h.id g st₀ hl
  | _ => exact ⟨h.nodup, h.mem, h.id⟩

theorem OrderInv.run {s : Scheduler α} (h : s.OrderInv) (ops : List (SchedulerOp α)) :
    (s.run deepEqual ops).OrderInv := by
  induction ops generalizing s with
  | nil => exact h
  | cons op ops ih => exact ih (h.step deepEqual op)

/-- The group order of a scheduler whose tables are consistent. -/
theorem OrderInv.orderedGroups_eq {s : Scheduler α} (h : s.OrderInv) :
    s.orderedGroups = s.syncOrder.filterMap s.groupStates.lookup ++
      (s.registrationOrder.filter (· ∉ s.syncOrder)).filterMap s.groupStates.lookup :=
  rebuildOrder_eq _ _ _ h.nodup fun g hg => (h.mem g).1 hg

/-- The groups a tick runs are registered under their ids, while the tables
the order reads are consistent. -/
theorem OrderInv.lookup_of_mem_orderedGroups {s : Scheduler α} (h : s.OrderInv)
    {st : WorkGroupState} (hst : st ∈ s.orderedGroups) : s.groupStates.lookup st.id = some st := by
  rw [h.orderedGroups_eq, List.mem_append, List.mem_filterMap, List.mem_filterMap] at hst
  obtain ⟨g, -, hl⟩ | ⟨g, -, hl⟩ := hst <;> rwa [h.id g st hl]

end Scheduler

/-- **The group order.**  After any run of calls from a
new scheduler, the groups a tick runs are, by id, the registered groups the
sync order names, in its order and as often as it names them, then the other
registered groups in registration order; each is the state registered under its
id, and a registered group comes up as often as the sync order names it, once
if it does not name it. -/
theorem orderedGroups_follow_syncOrder (deepEqual : Option α → Option α → Bool)
    (world : Option (World α)) (ops : List (SchedulerOp α)) :
    let s := (newScheduler world).run deepEqual ops
    s.orderedGroups.map (·.id) =
        s.syncOrder.filter (· ∈ s.groupStates) ++ s.registrationOrder.filter (· ∉ s.syncOrder) ∧
      (∀ st ∈ s.orderedGroups, s.groupStates.lookup st.id = some st) ∧
      ∀ g ∈ s.groupStates, (s.orderedGroups.map (·.id)).count g = max 1 (s.syncOrder.count g) := by
  intro s
  have h : s.OrderInv := (Scheduler.orderInv_newScheduler world).run deepEqual ops
  have hreg : ∀ g ∈ s.registrationOrder.filter (· ∉ s.syncOrder), g ∈ s.groupStates :=
    fun g hg => (h.mem g).1 (List.mem_of_mem_filter hg)
  have hids : s.orderedGroups.map (·.id) =
      s.syncOrder.filter (· ∈ s.groupStates) ++ s.registrationOrder.filter (· ∉ s.syncOrder) := by
    rw [h.orderedGroups_eq, List.map_append, Scheduler.map_id_filterMap_lookup h.id,
      Scheduler.map_id_filterMap_lookup h.id]
    congr 1
    exact List.filter_eq_self.2 fun g hg => by simp [hreg g hg]
  refine ⟨hids, fun st hst => ?_, fun g hg => ?_⟩
  · rw [h.orderedGroups_eq, List.mem_append, List.mem_filterMap, List.mem_filterMap] at hst
    obtain ⟨g, -, hl⟩ | ⟨g, -, hl⟩ := hst <;> rwa [h.id g st hl]
  · have hr : g ∈ s.registrationOrder := (h.mem g).2 hg
    rw [hids, List.count_append, List.count_filter (by simpa using hg)]
    by_cases hs : g ∈ s.syncOrder
    · have h₀ : (s.registrationOrder.filter (· ∉ s.syncOrder)).count g = 0 :=
        List.count_eq_zero_of_not_mem (by simp [hs])
      have := List.count_pos_iff.2 hs
      omega
    · have h₁ : (s.registrationOrder.filter (· ∉ s.syncOrder)).count g = 1 :=
        List.count_eq_one_of_mem (h.nodup.filter _) (by simp [hr, hs])
      rw [List.count_eq_zero_of_not_mem hs, h₁]
      rfl

/-- A synchronized group `A` whose system defers a create, named twice in the
sync order: each tick runs `A` twice, publishes two summaries for it and
creates two entities. -/
theorem syncOrder_runs_group_twice :
    let s : Scheduler ℕ := (newScheduler none).run (· == ·)
      [.registerWorkGroup ⟨"A", .synchronized, [some ⟨"a1", [], [], [], ⟨0, 0⟩, false⟩],
        ⟨0, 0⟩, .abort⟩,
       .withSyncOrder ["A", "A"]]
    let env : TickEnv ℕ := ⟨fun _ => none, fun _ _ _ => ⟨[some .createEntity], false, none⟩⟩
    s.orderedGroups.map (·.id) = ["A", "A"] ∧
      (published (s.tick (· == ·) env).events).map (·.id) = ["A", "A"] ∧
      (s.tick (· == ·) env).sched.world.registry.isAlive ⟨1, 1⟩ = true := by
  decide

/-! ### The access tables over a run -/

namespace Scheduler

variable (deepEqual : Option α → Option α → Bool)

/-- `RegInv` reads a group state only through its id, mode, systems and four
sets: tables whose group states are those of `s` with `lastRun` and `policy`
replaced, and whose owner, reader and order tables are those of `s`, keep it. -/
theorem RegInv.of_relabel {s s' : Scheduler α} (h : s.RegInv)
    (lastRun : WorkGroupID → WorkGroupState → UInt64)
    (policy : WorkGroupID → WorkGroupState → ErrorPolicy)
    (hl : ∀ g, s'.groupStates.lookup g =
      (s.groupStates.lookup g).map fun st => { st with lastRun := lastRun g st, policy := policy g st })
    (htab : s'.componentOwners = s.componentOwners ∧ s'.resourceOwners = s.resourceOwners ∧
      s'.resourceReaders = s.resourceReaders ∧ s'.registrationOrder = s.registrationOrder) :
    s'.RegInv := by
  obtain ⟨hc, hro, hrr, ho⟩ := htab
  have hlk : ∀ {g st'}, s'.groupStates.lookup g = some st' → ∃ st,
      s.groupStates.lookup g = some st ∧ { st with lastRun := lastRun g st, policy := policy g st } = st' :=
    fun hg => Option.map_eq_some'.1 ((hl _).symm.trans hg)
  -- a property of the access fields holds of a state of `s'` iff of one of `s`
  have hex : ∀ g (P : WorkGroupState → Prop),
      (∃ st, s.groupStates.lookup g = some st ∧ P { st with lastRun := 0, policy := .abort }) ↔
        ∃ st, s'.groupStates.lookup g = some st ∧ P { st with lastRun := 0, policy := .abort } := by
    intro g P; rw [hl]; cases s.groupStates.lookup g <;> simp
  have hmem : ∀ g, g ∈ s.groupStates ↔ g ∈ s'.groupStates := fun g => by
    rw [← AList.lookup_isSome, ← AList.lookup_isSome, hl]; cases s.groupStates.lookup g <;> rfl
  refine ⟨fun g st' hg => ?_, fun g₁ g₂ st₁ st₂ h₁ h₂ hne => ?_, fun g₁ g₂ st₁ st₂ h₁ h₂ hne => ?_,
    fun g₁ g₂ st₁ st₂ h₁ h₂ hne => ?_, fun c g => ?_, fun r g => ?_, fun r g => ?_,
    fun r hr => ?_, fun g => ?_, ho ▸ h.registrationOrder_nodup⟩
  · obtain ⟨st, hst, rfl⟩ := hlk hg
    obtain ⟨hid, hw⟩ := h.wellFormed g st hst
    exact ⟨hid, ⟨hw.1, hw.2, hw.3, hw.4, hw.5⟩⟩
  · obtain ⟨st₁, l₁, rfl⟩ := hlk h₁
    obtain ⟨st₂, l₂, rfl⟩ := hlk h₂
    exact h.writeSets_disjoint g₁ g₂ st₁ st₂ l₁ l₂ hne
  · obtain ⟨st₁, l₁, rfl⟩ := hlk h₁
    obtain ⟨st₂, l₂, rfl⟩ := hlk h₂
    exact h.resourceWrites_disjoint g₁ g₂ st₁ st₂ l₁ l₂ hne
  · obtain ⟨st₁, l₁, rfl⟩ := hlk h₁
    obtain ⟨st₂, l₂, rfl⟩ := hlk h₂
    exact h.written_not_read g₁ g₂ st₁ st₂ l₁ l₂ hne
  · rw [hc, h.componentOwners]; exact hex g (fun st => c ∈ st.writeSet)
  · rw [hro, h.resourceOwners]; exact hex g (fun st => r ∈ st.resourceWrites)
  · rw [hrr, h.resourceReaders]; exact hex g (fun st => r ∈ st.resourceReads)
  · obtain ⟨g, hg⟩ := h.resourceReaders_keys r (hrr ▸ hr)
    exact ⟨g, (hex g (fun st => r ∈ st.resourceReads)).1 hg⟩
  · rw [ho, h.registrationOrder, hmem]

/-- `WithErrorPolicy` on a registered group changes its policy and nothing
else in the table. -/
theorem lookup_insert_policy {gs : AList (fun _ : WorkGroupID => WorkGroupState)}
    {id : WorkGroupID} {state : WorkGroupState} (hl : gs.lookup id = some state) (q : ErrorPolicy)
    (g : WorkGroupID) :
    (gs.insert id { state with policy := q }).lookup g = (gs.lookup g).map fun st =>
      { st with lastRun := st.lastRun, policy := if g = id then q else st.policy } := by
  rw [lookup_insert_ite]
  split_ifs with he
  · subst he; rw [hl]; rfl
  · cases gs.lookup g <;> rfl

/-- The registration invariant gives the one the group order reads. -/
theorem RegInv.orderInv {s : Scheduler α} (h : s.RegInv) : s.OrderInv :=
  ⟨h.registrationOrder_nodup, h.registrationOrder, fun g st hg => (h.wellFormed g st hg).1⟩

/-- Every call keeps the registration invariant: a tick changes a group only
in `lastRun`, `WithErrorPolicy` only in `policy`, and the other calls leave
the tables alone. -/
theorem RegInv.step {s : Scheduler α} (h : s.RegInv) (op : SchedulerOp α) :
    (s.step deepEqual op).1.RegInv := by
  cases op with
  | registerWorkGroup cfg => exact h.registerWorkGroup cfg
  | withErrorPolicy id policy =>
    simp only [Scheduler.step, withErrorPolicy]
    split
    · next state hl0 => exact h.of_relabel _ _ (lookup_insert_policy hl0 _) ⟨rfl, rfl, rfl, rfl⟩
    · exact ⟨h.1, h.2, h.3, h.4, h.5, h.6, h.7, h.8, h.9, h.10⟩
  | withAsyncWorkers count => exact h.withPool _
  | tick env =>
    obtain ⟨w, ex, t, he⟩ := tick_sched deepEqual env s
    simp only [Scheduler.step]
    rw [he]
    refine h.of_relabel (fun g st => if g ∈ ex then s.tickIndex else st.lastRun)
      (fun _ st => st.policy) (fun g => ?_) ⟨rfl, rfl, rfl, rfl⟩
    rw [lookup_setLastRun]
    congr 1; funext st; dsimp only; split_ifs <;> rfl
  | _ => exact ⟨h.1, h.2, h.3, h.4, h.5, h.6, h.7, h.8, h.9, h.10⟩

theorem RegInv.run {s : Scheduler α} (h : s.RegInv) (ops : List (SchedulerOp α)) :
    (s.run deepEqual ops).RegInv := by
  induction ops generalizing s with
  | nil => exact h
  | cons op ops ih => exact ih (h.step deepEqual op)

end Scheduler

/-- A group that passed validation in async mode is allowed to run async and
writes nothing. -/
theorem WorkGroupState.WellFormed.async_writes_nil {st : WorkGroupState} (hw : st.WellFormed)
    (ha : st.mode = .async) :
    (∀ d ∈ st.systems, d.asyncAllowed = true) ∧ st.writeSet = [] ∧ st.resourceWrites = [] := by
  have hd := hw.access.async ha
  refine ⟨fun d hd' => (hd d hd').1, List.eq_nil_iff_forall_not_mem.2 fun c hc => ?_,
    List.eq_nil_iff_forall_not_mem.2 fun r hr => ?_⟩
  · obtain ⟨d, hd', hc⟩ := (hw.writeSet c).1 hc
    simp [(hd d hd').2.1] at hc
  · obtain ⟨d, hd', hr⟩ := (hw.resourceWrites r).1 hr
    simp only [resourceWriteNames, List.mem_map, List.mem_filter, decide_eq_true_eq] at hr
    obtain ⟨a, ⟨ha', -, hw'⟩, -⟩ := hr
    exact (hd d hd').2.2 a ha' hw'

/-- **The groups a tick runs never conflict.**  After any run of calls from a
new scheduler, the registration tables are consistent, and of the groups the
next tick runs, an async one is allowed to run async and writes no component
and no resource, and two with distinct ids share no component write and no
resource write, and neither reads a resource the other writes. -/
theorem orderedGroups_access_disjoint (deepEqual : Option α → Option α → Bool)
    (world : Option (World α)) (ops : List (SchedulerOp α)) :
    ((newScheduler world).run deepEqual ops).RegInv ∧
      ∀ st₁ ∈ ((newScheduler world).run deepEqual ops).orderedGroups,
        (st₁.mode = .async →
          (∀ d ∈ st₁.systems, d.asyncAllowed = true) ∧ st₁.writeSet = [] ∧ st₁.resourceWrites = []) ∧
        ∀ st₂ ∈ ((newScheduler world).run deepEqual ops).orderedGroups, st₁.id ≠ st₂.id →
          st₁.writeSet.Disjoint st₂.writeSet ∧ st₁.resourceWrites.Disjoint st₂.resourceWrites ∧
            ∀ r ∈ st₁.resourceWrites, r ∉ st₂.resourceReads := by
  have h := (Scheduler.regInv_newScheduler world).run deepEqual ops
  refine ⟨h, fun st₁ h₁ => ?_⟩
  have l₁ := h.orderInv.lookup_of_mem_orderedGroups h₁
  refine ⟨(h.wellFormed _ _ l₁).2.async_writes_nil, fun st₂ h₂ hne => ?_⟩
  have l₂ := h.orderInv.lookup_of_mem_orderedGroups h₂
  exact ⟨h.writeSets_disjoint _ _ _ _ l₁ l₂ hne, h.resourceWrites_disjoint _ _ _ _ l₁ l₂ hne,
    h.written_not_read _ _ _ _ l₁ l₂ hne⟩

/-! ### The error policies over a run -/

namespace Scheduler

variable (deepEqual : Option α → Option α → Bool)

/-- What the policy tables keep: `errorPolicies` holds no abort policy, and a
registered group runs under abort only while no policy is configured for its
id. -/
structure PolicyInv (s : Scheduler α) : Prop where
  configured : ∀ g p, s.errorPolicies.lookup g = some p → p ≠ .abort
  abort : ∀ g st, s.groupStates.lookup g = some st → st.policy = .abort →
    s.errorPolicies.lookup g = none

theorem policyInv_newScheduler (world : Option (World α)) : (newScheduler world).PolicyInv :=
  ⟨by simp [newScheduler], by simp [newScheduler]⟩

/-- `resolvePolicy` gives abort only for a supplied abort with no policy
configured, while the table holds no abort. -/
theorem resolvePolicy_eq_abort {s : Scheduler α}
    (hcfg : ∀ g p, s.errorPolicies.lookup g = some p → p ≠ .abort) {id : WorkGroupID}
    {p : ErrorPolicy} (h : s.resolvePolicy id p = .abort) : s.errorPolicies.lookup id = none := by
  unfold resolvePolicy at h
  split_ifs at h with hp
  · exact absurd h hp
  · cases hl : s.errorPolicies.lookup id with
    | none => rfl
    | some q => rw [hl] at h; exact absurd h (hcfg _ _ hl)

/-- `resolvePolicy` keeps a supplied policy that is not abort. -/
theorem resolvePolicy_of_ne {s : Scheduler α} {id : WorkGroupID} {p : ErrorPolicy}
    (hp : p ≠ .abort) : s.resolvePolicy id p = p :=
  if_pos hp

theorem PolicyInv.step {s : Scheduler α} (h : s.PolicyInv) (op : SchedulerOp α) :
    (s.step deepEqual op).1.PolicyInv := by
  cases op with
  | registerWorkGroup cfg =>
    simp only [Scheduler.step]
    rcases registerWorkGroup_cases s cfg with ⟨-, he⟩ | ⟨-, -, acc, -, -, he⟩ <;> rw [he]
    · exact ⟨h.1, h.2⟩
    · refine ⟨h.1, fun g st hg hp => ?_⟩
      rw [show _ = _ from lookup_addGroup] at hg
      split_ifs at hg with hgid
      · cases hg; subst hgid; exact resolvePolicy_eq_abort h.1 hp
      · exact h.2 g st hg hp
  | withErrorPolicy id policy =>
    simp only [Scheduler.step, withErrorPolicy]
    have hE : ∀ g, (if policy ≠ .abort then s.errorPolicies.insert id policy
        else s.errorPolicies.erase id).lookup g =
          if g = id then (if policy ≠ .abort then some policy else none)
          else s.errorPolicies.lookup g := by
      intro g
      by_cases hgid : g = id
      · subst hgid; by_cases hp : policy ≠ .abort <;> simp [hp]
      · split_ifs <;> simp [hgid, lookup_insert_ite, AList.lookup_erase_ne]
    have h₁ : ∀ g p, (if policy ≠ .abort then s.errorPolicies.insert id policy
        else s.errorPolicies.erase id).lookup g = some p → p ≠ .abort := by
      intro g p hg
      rw [hE] at hg
      split_ifs at hg with hgid hp
      · cases hg; exact hp
      · exact h.1 g p hg
    split
    · next state hl0 =>
      refine ⟨h₁, fun g st hg hp => ?_⟩
      rw [lookup_insert_ite] at hg
      by_cases hgid : g = id
      · rw [if_pos hgid] at hg; cases hg; subst hgid; exact resolvePolicy_eq_abort h₁ hp
      · rw [if_neg hgid] at hg; rw [hE, if_neg hgid]; exact h.2 g st hg hp
    · next hl0 =>
      refine ⟨h₁, fun g st hg hp => ?_⟩
      have hgid : g ≠ id := by rintro rfl; exact nomatch hl0.symm.trans hg
      rw [hE, if_neg hgid]; exact h.2 g st hg hp
  | tick env =>
    obtain ⟨w, ex, t, he⟩ := tick_sched deepEqual env s
    simp only [Scheduler.step]
    rw [he]
    refine ⟨h.1, fun g st hg hp => ?_⟩
    rw [lookup_setLastRun] at hg
    obtain ⟨st₀, hl, rfl⟩ := Option.map_eq_some'.1 hg
    exact h.2 g st₀ hl (by split_ifs at hp <;> exact hp)
  | _ => exact ⟨h.1, h.2⟩

theorem PolicyInv.run {s : Scheduler α} (h : s.PolicyInv) (ops : List (SchedulerOp α)) :
    (s.run deepEqual ops).PolicyInv := by
  induction ops generalizing s with
  | nil => exact h
  | cons op ops ih => exact ih (h.step deepEqual op)

/-- A registered group whose policy is not abort keeps it through any call:
`WithErrorPolicy` resolves the policy again from the current one, which wins. -/
theorem policy_step {s : Scheduler α} {g : WorkGroupID} {st : WorkGroupState}
    (hg : s.groupStates.lookup g = some st) (hp : st.policy ≠ .abort) (op : SchedulerOp α) :
    ∃ st', (s.step deepEqual op).1.groupStates.lookup g = some st' ∧ st'.policy = st.policy := by
  cases op with
  | registerWorkGroup cfg =>
    simp only [Scheduler.step]
    rcases registerWorkGroup_cases s cfg with ⟨-, he⟩ | ⟨-, hid, acc, -, -, he⟩ <;> rw [he]
    · exact ⟨st, hg, rfl⟩
    · exact ⟨st, (lookup_addGroup.trans (if_neg (ne_id_of_lookup hid hg))).trans hg, rfl⟩
  | withErrorPolicy id policy =>
    simp only [Scheduler.step, withErrorPolicy]
    split
    · next state hl0 =>
      rw [lookup_insert_ite]
      by_cases hgid : g = id
      · subst hgid
        obtain rfl : state = st := Option.some_inj.1 (hl0.symm.trans hg)
        exact ⟨_, if_pos rfl, resolvePolicy_of_ne hp⟩
      · exact ⟨st, (if_neg hgid).trans hg, rfl⟩
    · exact ⟨st, hg, rfl⟩
  | tick env =>
    obtain ⟨w, ex, t, he⟩ := tick_sched deepEqual env s
    simp only [Scheduler.step]
    rw [he, lookup_setLastRun, hg]
    exact ⟨_, rfl, by dsimp only; split_ifs <;> rfl⟩
  | _ => exact ⟨st, hg, rfl⟩

theorem policy_run (ops : List (SchedulerOp α)) : ∀ {s : Scheduler α} {g : WorkGroupID}
    {st : WorkGroupState}, s.groupStates.lookup g = some st → st.policy ≠ .abort →
      ∃ st', (s.run deepEqual ops).groupStates.lookup g = some st' ∧ st'.policy = st.policy := by
  induction ops with
  | nil => exact fun hg _ => ⟨_, hg, rfl⟩
  | cons op ops ih =>
    intro s g st hg hp
    obtain ⟨st', hg', he⟩ := policy_step deepEqual hg hp op
    obtain ⟨st'', hg'', he'⟩ := ih hg' (he ▸ hp)
    exact ⟨st'', hg'', he'.trans he⟩

end Scheduler

/-- **The error policy a group runs under.**  After any run of calls from a
new scheduler, no policy configured through `WithErrorPolicy` is abort, and a
registered group runs under abort only while no policy is configured for its
id; and through any further calls, a group whose policy is not abort keeps it,
`WithErrorPolicy` included. -/
theorem errorPolicy_run (deepEqual : Option α → Option α → Bool) (world : Option (World α))
    (ops : List (SchedulerOp α)) :
    (∀ g p, ((newScheduler world).run deepEqual ops).errorPolicies.lookup g = some p →
        p ≠ .abort) ∧
      (∀ g st, ((newScheduler world).run deepEqual ops).groupStates.lookup g = some st →
        st.policy = .abort → ((newScheduler world).run deepEqual ops).errorPolicies.lookup g = none) ∧
      ∀ ops' g st, ((newScheduler world).run deepEqual ops).groupStates.lookup g = some st →
        st.policy ≠ .abort → ∃ st',
          (((newScheduler world).run deepEqual ops).run deepEqual ops').groupStates.lookup g =
            some st' ∧ st'.policy = st.policy := by
  have h := (Scheduler.policyInv_newScheduler world).run deepEqual ops
  exact ⟨h.configured, h.abort, fun ops' _ _ hg hp => Scheduler.policy_run deepEqual ops' hg hp⟩

end Ecs

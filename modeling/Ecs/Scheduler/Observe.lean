/-
# Observers: from a tick's summaries to the collector's text

`basicScheduler.publishWorkGroupSummary` and `workGroupRunSummary.toPublic`;
`applyInstrumentation` with `buildObserverChain`, `compositeObserver`,
`newLoggingObserver`, `prometheusObserver`, `sigNozObserver` and
`noopObserver`; and the `Writer` of the Prometheus collector's options.

The scheduler's logger is `noopLogger{}` from `NewScheduler` on, and no call
sets another, so a logging observer built on it logs nothing.  The chain's
observers only receive: an instrumented scheduler (`Instrumented`) steps as the
scheduler does, and hands the observer every summary a tick publishes, in
order, each with the duration a clock measured for it.  `Instrumented.run_eq`
splits a run into the scheduler's own run and the summaries it published.

* `tick_summaries`, `Scheduler.runPublished_registered`: every summary a run
  publishes is that of a group registered by then;
* `instrument_run_writes_exposition`: with the Prometheus collector the chain
  builds itself, without duration buckets, every text it writes over any run
  is well-formed exposition whose ids are registered groups', as long as every
  registered id needs no escape.  A `WorkGroupID` is a Lean `String`, so the
  ids are valid UTF-8; Go's strings may hold any bytes, which this model does
  not cover.
-/

import Ecs.Scheduler.Run
import Ecs.Observability

namespace Ecs

variable {α : Type}

/-! ### A tick publishes summaries of its own groups -/

section Published

variable {env : TickEnv α} {p : ℕ} {policy : ErrorPolicy} {tick : UInt64}

/-- The loop of `runWorkGroup` writes only the counts and the error of the
summary it is given. -/
theorem runSystems_id : ∀ (i : ℕ) (ds : List SystemDescriptor) (sm : WorkGroupRunSummary)
    (buf : CommandBuffer α), (runSystems env p policy tick i ds sm buf).1.id = sm.id
  | _, [], _, _ => rfl
  | i, d :: ds, sm, buf => by
    simp only [runSystems]
    split
    · rfl
    · split
      · exact runSystems_id _ ds _ buf
      · split <;> first | rfl | exact runSystems_id _ ds _ _

theorem runWorkGroup_id (group : WorkGroupState) (buf : CommandBuffer α) (async : Bool) :
    (runWorkGroup env p group tick buf async).1.id = group.id :=
  runSystems_id 0 group.systems _ buf

theorem dispatchAsync_summary_id {pool : Bool} {group : WorkGroupState} {sm : WorkGroupRunSummary}
    (h : (dispatchAsync env pool p group tick).summary = some sm) : sm.id = group.id := by
  unfold dispatchAsync at h
  split_ifs at h
  · split at h
    · cases h
    · cases h
    · split at h <;> cases h <;> rename_i hr <;> rw [← runWorkGroup_id group ⟨[]⟩ true, hr]
  · split at h
    cases h
    rename_i hr
    rw [← runWorkGroup_id group ⟨[]⟩ true, hr]

variable {s : Scheduler α}

/-- Every summary the first loop publishes, and every summary its async jobs
carry, is that of one of its groups. -/
theorem groupLoop_summaries (groups : List WorkGroupState) : ∀ (p : ℕ) (buf : CommandBuffer α),
    (∀ sm ∈ published (groupLoop env s tick p groups buf).events, ∃ g ∈ groups, sm.id = g.id) ∧
      ∀ j ∈ (groupLoop env s tick p groups buf).jobs, ∀ sm, j.2.summary = some sm →
        ∃ g ∈ groups, sm.id = g.id := by
  induction groups with
  | nil => exact fun _ _ => ⟨fun _ h => (nomatch h), fun _ h => (nomatch h)⟩
  | cons group rest ih =>
    intro p buf
    have hself : ∀ sm : WorkGroupRunSummary, sm.id = group.id → ∃ g ∈ group :: rest, sm.id = g.id :=
      fun sm h => ⟨group, List.mem_cons_self _ _, h⟩
    have hrest : ∀ sm : WorkGroupRunSummary, (∃ g ∈ rest, sm.id = g.id) → ∃ g ∈ group :: rest, sm.id = g.id :=
      fun sm ⟨g, hg, h⟩ => ⟨g, List.mem_cons_of_mem _ hg, h⟩
    rcases groupLoop_cons_cases group rest p buf with
      ⟨ce, he⟩ | ⟨-, he⟩ | ⟨-, -, he⟩ | ⟨sm, buf', -, -, hr, he⟩ | ⟨sm, buf', err, -, -, hr, he⟩ |
      ⟨sm, buf', err, hr, he⟩ <;> rw [he]
    · exact ⟨fun _ h => (nomatch h), fun _ h => (nomatch h)⟩
    · obtain ⟨ih₁, ih₂⟩ := ih (p + 1) buf
      exact ⟨fun sm h => hrest sm (ih₁ sm h), fun j hj sm h => hrest sm (ih₂ j hj sm h)⟩
    · obtain ⟨ih₁, ih₂⟩ := ih (p + 1) buf
      refine ⟨fun sm h => hrest sm (ih₁ sm h), fun j hj sm h => ?_⟩
      rcases List.mem_cons.1 hj with rfl | hj
      · exact hself sm (dispatchAsync_summary_id h)
      · exact hrest sm (ih₂ j hj sm h)
    all_goals
      have hid : sm.id = group.id := by rw [← runWorkGroup_id group buf false, hr]
    · obtain ⟨ih₁, ih₂⟩ := ih (p + 1) buf'
      refine ⟨fun sm' h => ?_, fun j hj sm' h => hrest sm' (ih₂ j hj sm' h)⟩
      rcases List.mem_cons.1 h with rfl | h
      · exact hself _ hid
      · exact hrest sm' (ih₁ sm' h)
    · obtain ⟨ih₁, ih₂⟩ := ih (p + 1) buf'
      refine ⟨fun sm' h => ?_, fun j hj sm' h => hrest sm' (ih₂ j hj sm' h)⟩
      rcases List.mem_cons.1 h with rfl | h
      · exact hself _ hid
      · exact hrest sm' (ih₁ sm' h)
    · refine ⟨fun sm' h => ?_, fun j hj => absurd hj (List.not_mem_nil _)⟩
      rw [published, published, List.mem_singleton] at h
      exact hself _ (h ▸ hid)

end Published

/-- **A tick publishes only summaries of the groups it runs**: each carries the
id of a group in `orderedGroups`. -/
theorem tick_summaries (deepEqual : Option α → Option α → Bool) (env : TickEnv α)
    (s : Scheduler α) :
    ∀ sm ∈ published (s.tick deepEqual env).events, ∃ g ∈ s.orderedGroups, sm.id = g.id := by
  obtain ⟨g₁, g₂⟩ := @groupLoop_summaries α env s.tickIndex s s.orderedGroups 0 ⟨[]⟩
  obtain ⟨-, jw, -, jp⟩ := joinLoop_events deepEqual (s := s)
    (groupLoop env s s.tickIndex 0 s.orderedGroups ⟨[]⟩).jobs s.world
  have hj : ∀ sm ∈ published (joinLoop deepEqual s
      (groupLoop env s s.tickIndex 0 s.orderedGroups ⟨[]⟩).jobs s.world).events,
      ∃ g ∈ s.orderedGroups, sm.id = g.id := fun sm h => by
    rw [jp] at h
    obtain ⟨j, hjw, hjs⟩ := List.mem_filterMap.1 h
    exact g₂ j (jw.subset hjw) sm hjs
  rcases tick_cases deepEqual env s rfl rfl with ⟨-, he⟩ | ⟨-, -, he⟩ | ⟨-, -, hev, -⟩
  · rw [he]; exact g₁
  · rw [he, published_append]
    exact fun sm h => (List.mem_append.1 h).elim (g₁ sm) (hj sm)
  · rw [hev, published_append]
    exact fun sm h => (List.mem_append.1 h).elim (g₁ sm) (hj sm)

namespace Scheduler

variable (deepEqual : Option α → Option α → Bool)

/-- The summaries a call publishes: a tick's, and none for the other calls. -/
def stepPublished (s : Scheduler α) : SchedulerOp α → List WorkGroupRunSummary
  | .tick env => published (s.tick deepEqual env).events
  | _ => []

/-- The summaries a run of calls publishes, in order. -/
def runPublished (s : Scheduler α) : List (SchedulerOp α) → List WorkGroupRunSummary
  | [] => []
  | op :: ops => s.stepPublished deepEqual op ++ (s.step deepEqual op).1.runPublished ops

/-- A call keeps every registered group, and registers at most the group of
a `RegisterWorkGroup` call. -/
theorem mem_groupStates_step (s : Scheduler α) (op : SchedulerOp α) (g : WorkGroupID) :
    (g ∈ s.groupStates → g ∈ (s.step deepEqual op).1.groupStates) ∧
      (g ∈ (s.step deepEqual op).1.groupStates →
        g ∈ s.groupStates ∨ ∃ cfg, op = .registerWorkGroup cfg ∧ g = cfg.id) := by
  cases op with
  | registerWorkGroup cfg =>
    simp only [step]
    rcases registerWorkGroup_cases s cfg with ⟨-, he⟩ | ⟨-, -, acc, -, -, he⟩ <;> rw [he]
    · exact ⟨id, .inl⟩
    · simp only [addGroup, AList.mem_insert, newGroupState]
      exact ⟨.inr, fun h => h.elim (fun h => .inr ⟨cfg, rfl, h⟩) .inl⟩
  | withErrorPolicy gid policy =>
    simp only [step, withErrorPolicy]
    split
    · next state hl =>
      have hmem : gid ∈ s.groupStates := AList.lookup_isSome.1 (by simp [hl])
      simp only [AList.mem_insert]
      exact ⟨.inr, fun h => .inl (h.elim (fun he => he ▸ hmem) id)⟩
    · exact ⟨id, .inl⟩
  | tick env =>
    obtain ⟨w, ex, t, he⟩ := tick_sched deepEqual env s
    simp only [step]
    rw [he]
    exact ⟨mem_setLastRun.2, fun h => .inl (mem_setLastRun.1 h)⟩
  | _ => exact ⟨id, .inl⟩

theorem mem_groupStates_run (ops : List (SchedulerOp α)) :
    ∀ (s : Scheduler α) {g : WorkGroupID}, g ∈ s.groupStates → g ∈ (s.run deepEqual ops).groupStates := by
  induction ops with
  | nil => exact fun _ _ h => h
  | cons op ops ih => exact fun s g h => ih _ ((mem_groupStates_step deepEqual s op g).1 h)

/-- **Every summary a run publishes is that of a registered group**, one
registered by then, and so at the end, with an id that a `RegisterWorkGroup`
call of the run, or the start, registered. -/
theorem runPublished_registered (P : WorkGroupID → Prop) :
    ∀ (ops : List (SchedulerOp α)) (s : Scheduler α), s.OrderInv →
      (∀ g ∈ s.groupStates, P g) → (∀ cfg, SchedulerOp.registerWorkGroup cfg ∈ ops → P cfg.id) →
      ∀ sm ∈ s.runPublished deepEqual ops, P sm.id ∧ sm.id ∈ (s.run deepEqual ops).groupStates
  | [], _, _, _, _ => fun _ h => absurd h (List.not_mem_nil _)
  | op :: ops, s, ho, hP, hops => by
    have hP' : ∀ g ∈ (s.step deepEqual op).1.groupStates, P g := fun g hg =>
      ((mem_groupStates_step deepEqual s op g).2 hg).elim (hP g) fun ⟨cfg, hc, he⟩ =>
        he ▸ hops cfg (hc ▸ List.mem_cons_self _ _)
    have ih := runPublished_registered P ops (s.step deepEqual op).1 (ho.step deepEqual op) hP'
      fun cfg hc => hops cfg (List.mem_cons_of_mem _ hc)
    intro sm hsm
    rcases List.mem_append.1 hsm with hsm | hsm
    · cases op with
      | tick env =>
        obtain ⟨st, hst, hid⟩ := tick_summaries deepEqual env s sm hsm
        have hmem : sm.id ∈ s.groupStates :=
          AList.lookup_isSome.1 (by rw [hid, ho.lookup_of_mem_orderedGroups hst]; rfl)
        exact ⟨hP _ hmem, mem_groupStates_run deepEqual ops _
          ((mem_groupStates_step deepEqual s _ _).1 hmem)⟩
      | _ => exact absurd hsm (List.not_mem_nil _)
    · exact ih sm hsm

end Scheduler

/-! ### The observer chain -/

/-- Go's `workGroupRunSummary.toPublic`, with the duration the clock measured
for the group's run, in nanoseconds. -/
def WorkGroupRunSummary.toPublic (summary : WorkGroupRunSummary) (duration : ℤ) :
    WorkGroupSummary :=
  ⟨summary.id, summary.mode, summary.async, duration, (summary.systemsExecuted : ℤ),
    (summary.systemsSkipped : ℤ), summary.err⟩

/-- Go's `ObservationLogFormatJSON`. -/
def observationLogFormatJSON : UInt8 := 0

/-- Go's `ObservationLogFormatKeyValue`. -/
def observationLogFormatKeyValue : UInt8 := 1

/-- The logger a logging observer writes to: the scheduler's own, which is
`noopLogger{}` (`NewScheduler` sets it and no call changes it), or the
configuration's `StructuredLogger`. -/
inductive LogTarget
  | scheduler
  | structured
deriving DecidableEq, Repr

/-- The observers `buildObserverChain` puts in a chain: `noopObserver`, the
configuration's `Observer`, a `loggingObserver` with its logger and format, a
`prometheusObserver` over the chain's collector, whose options have a `Writer`
or not, and a `sigNozObserver`. -/
inductive Sink
  | noop
  | observer
  | logging (logger : LogTarget) (format : UInt8)
  | prometheus (writer : Bool)
  | sigNoz
deriving DecidableEq, Repr

/-- Go's `SchedulerObserver` as `buildObserverChain` returns it. -/
inductive SchedulerObserver
  | noop
  | one (sink : Sink)
  | composite (observers : List Sink)
deriving DecidableEq, Repr

/-- The fields of `InstrumentationConfig` and of its `Observation` that
`buildObserverChain` reads.  `observer` and `structuredLogger` say whether
`Observer` and `StructuredLogger` are set; a `PrometheusCollector` that is set
is a `PrometheusWorkGroupCollector`, given here with whether its options have
a `Writer`; `prometheusOptions` are the `PrometheusOptions`' `Writer` (set or
not) and `DurationBuckets`, `none` for nil options. -/
structure InstrumentationConfig where
  observer : Bool
  enableStructuredLogging : Bool
  loggingFormat : UInt8
  structuredLogger : Bool
  enablePrometheus : Bool
  prometheusCollector : Option (PrometheusWorkGroupCollector × Bool)
  prometheusOptions : Option (Bool × List ℤ)
  enableSigNoz : Bool

/-- Go's `newLoggingObserver`: no logger gives `noopObserver`, and a format
other than key-value is JSON. -/
def newLoggingObserver (logger : Option LogTarget) (format : UInt8) : Sink :=
  match logger with
  | none => .noop
  | some logger =>
    .logging logger (if format ≠ observationLogFormatKeyValue then observationLogFormatJSON else format)

/-- The collector the chain's Prometheus observer feeds, and whether it writes
its text to a `Writer`: the configured one, or `NewPrometheusWorkGroupCollector`
of the options. -/
def chainCollector (cfg : InstrumentationConfig) : PrometheusWorkGroupCollector × Bool :=
  cfg.prometheusCollector.getD
    (newPrometheusWorkGroupCollector ((cfg.prometheusOptions.map (·.2)).getD []),
      (cfg.prometheusOptions.map (·.1)).getD false)

/-- The observers `buildObserverChain` collects, in order.  The collector and
the exporter it builds when none is configured are never nil. -/
def observerList (logger : Option LogTarget) (cfg : InstrumentationConfig) : List Sink :=
  (if cfg.observer then [.observer] else []) ++
  (if cfg.enableStructuredLogging then
    [newLoggingObserver (if cfg.structuredLogger then some .structured else logger)
      cfg.loggingFormat] else []) ++
  (if cfg.enablePrometheus then [.prometheus (chainCollector cfg).2] else []) ++
  (if cfg.enableSigNoz then [.sigNoz] else [])

/-- Go's `buildObserverChain`. -/
def buildObserverChain (logger : Option LogTarget) (cfg : InstrumentationConfig) :
    SchedulerObserver :=
  match observerList logger cfg with
  | [] => .noop
  | [o] => .one o
  | observers => .composite observers

/-- What the sinks of a chain have received: the calls of the configured
`Observer`, the summaries logged to the `StructuredLogger` with their format,
the chain's collector, the texts it wrote to its `Writer`, and the summaries
handed to the SigNoz exporter. -/
structure Received where
  observer : List WorkGroupSummary
  logged : List (UInt8 × WorkGroupSummary)
  collector : PrometheusWorkGroupCollector
  written : List String
  exported : List WorkGroupSummary

/-- One observer's `WorkGroupCompleted`.  The scheduler's logger is
`noopLogger`, whose `Info` does nothing; `ObserveWorkGroup` writes the text of
`writeMetricsLocked` to the options' `Writer` when there is one. -/
def Sink.workGroupCompleted (r : Received) (summary : WorkGroupSummary) : Sink → Received
  | .noop => r
  | .observer => { r with observer := r.observer ++ [summary] }
  | .logging .scheduler _ => r
  | .logging .structured format => { r with logged := r.logged ++ [(format, summary)] }
  | .prometheus writer =>
    let c := r.collector.observeWorkGroup summary
    { r with collector := c, written := if writer then r.written ++ [c.writeMetrics] else r.written }
  | .sigNoz => { r with exported := r.exported ++ [summary] }

/-- The observers of a chain, in order. -/
def SchedulerObserver.sinks : SchedulerObserver → List Sink
  | .noop => []
  | .one sink => [sink]
  | .composite observers => observers

/-- `WorkGroupCompleted` of a chain: `compositeObserver` calls its observers in
order. -/
def SchedulerObserver.workGroupCompleted (o : SchedulerObserver) (r : Received)
    (summary : WorkGroupSummary) : Received :=
  match o with
  | .noop => r
  | .one sink => sink.workGroupCompleted r summary
  | .composite observers => observers.foldl (fun r sink => sink.workGroupCompleted r summary) r

theorem SchedulerObserver.workGroupCompleted_eq (o : SchedulerObserver) (r : Received)
    (summary : WorkGroupSummary) :
    o.workGroupCompleted r summary = o.sinks.foldl (fun r sink => sink.workGroupCompleted r summary) r := by
  cases o <;> rfl

theorem sinks_buildObserverChain (logger : Option LogTarget) (cfg : InstrumentationConfig) :
    (buildObserverChain logger cfg).sinks = observerList logger cfg := by
  unfold buildObserverChain
  generalize observerList logger cfg = l
  rcases l with _ | ⟨o, _ | ⟨o', l⟩⟩ <;> rfl

/-- **One summary through the chain `WithInstrumentation` installs.**  The
configured `Observer` receives it; the `StructuredLogger` logs it in JSON
unless the format is key-value, and without a `StructuredLogger` nothing is
logged (the scheduler's logger is `noopLogger`); the chain's collector observes
it and writes its text when its options have a `Writer`; the SigNoz exporter
receives it.  Each sink that is not enabled is left as it was. -/
theorem workGroupCompleted_buildObserverChain (cfg : InstrumentationConfig) (r : Received)
    (summary : WorkGroupSummary) :
    (buildObserverChain (some .scheduler) cfg).workGroupCompleted r summary =
      { observer := if cfg.observer then r.observer ++ [summary] else r.observer
        logged := if cfg.enableStructuredLogging ∧ cfg.structuredLogger then
          r.logged ++ [(if cfg.loggingFormat ≠ observationLogFormatKeyValue then
            observationLogFormatJSON else cfg.loggingFormat, summary)] else r.logged
        collector := if cfg.enablePrometheus then r.collector.observeWorkGroup summary
          else r.collector
        written := if cfg.enablePrometheus ∧ (chainCollector cfg).2 then
          r.written ++ [(r.collector.observeWorkGroup summary).writeMetrics] else r.written
        exported := if cfg.enableSigNoz then r.exported ++ [summary] else r.exported } := by
  rw [SchedulerObserver.workGroupCompleted_eq, sinks_buildObserverChain, observerList]
  generalize (chainCollector cfg).2 = w
  obtain ⟨o, l, f, sl, p, -, -, e⟩ := cfg
  cases o <;> cases l <;> cases sl <;> cases p <;> cases w <;> cases e <;> rfl

/-- The texts a collector writes to its `Writer` while it observes the
summaries, one after each observation. -/
def writtenTexts (c : PrometheusWorkGroupCollector) : List WorkGroupSummary → List String
  | [] => []
  | summary :: rest =>
    (c.observeWorkGroup summary).writeMetrics :: writtenTexts (c.observeWorkGroup summary) rest

section Chain

variable (cfg : InstrumentationConfig)

theorem written_foldl_chain (summaries : List WorkGroupSummary) : ∀ r : Received,
    (summaries.foldl (buildObserverChain (some .scheduler) cfg).workGroupCompleted r).written =
      if cfg.enablePrometheus ∧ (chainCollector cfg).2 then
        r.written ++ writtenTexts r.collector summaries else r.written := by
  induction summaries with
  | nil => intro r; split_ifs <;> simp [writtenTexts]
  | cons summary rest ih =>
    intro r
    rw [List.foldl_cons, ih, workGroupCompleted_buildObserverChain]
    by_cases h : cfg.enablePrometheus = true ∧ (chainCollector cfg).2 = true
    · simp only [if_pos h, if_pos h.1, writtenTexts, List.append_assoc, List.singleton_append]
    · simp only [if_neg h]

end Chain

/-! ### An instrumented scheduler -/

/-- A scheduler with the observer `applyInstrumentation` installed, what the
observer's sinks have received, and how many summaries it has published. -/
structure Instrumented (α : Type) where
  sched : Scheduler α
  observer : SchedulerObserver
  received : Received
  count : ℕ

/-- `NewScheduler` followed by `WithInstrumentation(cfg)`: the chain built
with the scheduler's logger, its collector, and sinks that have received
nothing. -/
def Scheduler.instrument (s : Scheduler α) (cfg : InstrumentationConfig) : Instrumented α :=
  ⟨s, buildObserverChain (some .scheduler) cfg, ⟨[], [], (chainCollector cfg).1, [], []⟩, 0⟩

/-- The public summaries of `sms`, the `k`-th of the run measured at `clock k`,
from the `n`-th on. -/
def publics (clock : ℕ → ℤ) : ℕ → List WorkGroupRunSummary → List WorkGroupSummary
  | _, [] => []
  | n, sm :: sms => sm.toPublic (clock n) :: publics clock (n + 1) sms


namespace Instrumented

variable (deepEqual : Option α → Option α → Bool) (clock : ℕ → ℤ)

/-- Go's `publishWorkGroupSummary` of each summary, in order: the observer's
`WorkGroupCompleted` of its public summary. -/
def publish (t : Instrumented α) : List WorkGroupRunSummary → Instrumented α
  | [] => t
  | sm :: sms =>
    publish { t with
      received := t.observer.workGroupCompleted t.received (sm.toPublic (clock t.count))
      count := t.count + 1 } sms

/-- One call: the scheduler's own, with the summaries it publishes handed to
the observer as it goes. -/
def step (t : Instrumented α) (op : SchedulerOp α) : Instrumented α × Option Error :=
  ({ t.publish clock (t.sched.stepPublished deepEqual op) with
      sched := (t.sched.step deepEqual op).1 }, (t.sched.step deepEqual op).2)

/-- A run of calls. -/
def run (t : Instrumented α) : List (SchedulerOp α) → Instrumented α
  | [] => t
  | op :: ops => ((t.step deepEqual clock op).1).run ops

@[simp] theorem publish_sched (t : Instrumented α) (sms : List WorkGroupRunSummary) :
    (t.publish clock sms).sched = t.sched := by
  induction sms generalizing t with
  | nil => rfl
  | cons sm sms ih => exact ih _

@[simp] theorem publish_observer (t : Instrumented α) (sms : List WorkGroupRunSummary) :
    (t.publish clock sms).observer = t.observer := by
  induction sms generalizing t with
  | nil => rfl
  | cons sm sms ih => exact ih _

/-- Publishing hands the observer the public summaries, numbered from the
count on. -/
theorem publish_received (t : Instrumented α) (sms : List WorkGroupRunSummary) :
    (t.publish clock sms).received =
        (publics clock t.count sms).foldl t.observer.workGroupCompleted t.received ∧
      (t.publish clock sms).count = t.count + sms.length := by
  induction sms generalizing t with
  | nil => exact ⟨rfl, rfl⟩
  | cons sm sms ih =>
    obtain ⟨h₁, h₂⟩ := ih { t with
      received := t.observer.workGroupCompleted t.received (sm.toPublic (clock t.count))
      count := t.count + 1 }
    refine ⟨h₁, ?_⟩
    rw [publish, h₂, List.length_cons]
    exact Nat.add_right_comm _ _ _

theorem publics_append (n : ℕ) (l₁ l₂ : List WorkGroupRunSummary) :
    publics clock n (l₁ ++ l₂) = publics clock n l₁ ++ publics clock (n + l₁.length) l₂ := by
  induction l₁ generalizing n with
  | nil => rfl
  | cons sm l₁ ih =>
    rw [List.cons_append, publics, publics, ih, List.cons_append, List.length_cons,
      show n + 1 + l₁.length = n + (l₁.length + 1) by omega]

/-- **The scheduler under its observer.**  A run of the instrumented
scheduler is the scheduler's own run, and its observer has been handed, in
order, the public summaries of everything the run published. -/
theorem run_eq (t : Instrumented α) (ops : List (SchedulerOp α)) :
    (t.run deepEqual clock ops).sched = t.sched.run deepEqual ops ∧
      (t.run deepEqual clock ops).observer = t.observer ∧
      (t.run deepEqual clock ops).received =
        (publics clock t.count (t.sched.runPublished deepEqual ops)).foldl
          t.observer.workGroupCompleted t.received ∧
      (t.run deepEqual clock ops).count = t.count + (t.sched.runPublished deepEqual ops).length := by
  induction ops generalizing t with
  | nil => exact ⟨rfl, rfl, rfl, rfl⟩
  | cons op ops ih =>
    obtain ⟨h₁, h₂, h₃, h₄⟩ := ih (t.step deepEqual clock op).1
    obtain ⟨hr, hc⟩ := publish_received clock t (t.sched.stepPublished deepEqual op)
    have ho := publish_observer clock t (t.sched.stepPublished deepEqual op)
    have hsc : (t.step deepEqual clock op).1.sched = (t.sched.step deepEqual op).1 := rfl
    refine ⟨h₁, h₂.trans ho, ?_, ?_⟩
    · rw [run, h₃, hsc, step, hc, ho, hr, Scheduler.runPublished, publics_append,
        List.foldl_append]
    · rw [run, h₄, hsc, step, hc, Scheduler.runPublished, List.length_append, Nat.add_assoc]

end Instrumented

/-! ### What the sinks receive over a run -/

theorem mem_publics (clock : ℕ → ℤ) :
    ∀ (n : ℕ) (sms : List WorkGroupRunSummary) {x : WorkGroupSummary}, x ∈ publics clock n sms →
      ∃ sm ∈ sms, x.workGroupID = sm.id
  | _, [], _, h => absurd h (List.not_mem_nil _)
  | n, sm :: sms, _, h => by
    rcases List.mem_cons.1 h with rfl | h
    · exact ⟨sm, List.mem_cons_self _ _, rfl⟩
    · obtain ⟨sm', hm, he⟩ := mem_publics clock (n + 1) sms h
      exact ⟨sm', List.mem_cons_of_mem _ hm, he⟩

/-- A collector's keys are those it started with and those of the summaries
it observed. -/
theorem mem_samples_foldl : ∀ (summaries : List WorkGroupSummary) (c : PrometheusWorkGroupCollector),
    ∀ ks ∈ (summaries.foldl PrometheusWorkGroupCollector.observeWorkGroup c).samples,
      ks ∈ c.samples ∨ ∃ x ∈ summaries, ks.1.workGroupID = x.workGroupID
  | [], _, _, h => .inl h
  | x :: rest, c, ks, h => by
    rcases mem_samples_foldl rest _ ks h with h | ⟨y, hy, he⟩
    · simp only [PrometheusWorkGroupCollector.observeWorkGroup, List.mem_append, List.mem_filter,
        List.mem_singleton] at h
      rcases h with ⟨h, -⟩ | rfl
      · exact .inl h
      · exact .inr ⟨x, List.mem_cons_self _ _, rfl⟩
    · exact .inr ⟨y, List.mem_cons_of_mem _ hy, he⟩

/-- Each text written is the collector's text after a prefix of the
summaries. -/
theorem mem_writtenTexts : ∀ (summaries : List WorkGroupSummary) (c : PrometheusWorkGroupCollector),
    ∀ text ∈ writtenTexts c summaries, ∃ l, l <+: summaries ∧
      text = (l.foldl PrometheusWorkGroupCollector.observeWorkGroup c).writeMetrics
  | [], _, _, h => absurd h (List.not_mem_nil _)
  | x :: rest, c, text, h => by
    rcases List.mem_cons.1 h with rfl | h
    · exact ⟨[x], (List.prefix_cons_inj x).2 List.nil_prefix, rfl⟩
    · obtain ⟨l, hl, rfl⟩ := mem_writtenTexts rest _ text h
      exact ⟨x :: l, (List.prefix_cons_inj x).2 hl, rfl⟩

/-- The texts the chain's collector writes over a run: one after each
published summary, when Prometheus is enabled and its options have a
`Writer`. -/
theorem written_instrument_run (deepEqual : Option α → Option α → Bool) (clock : ℕ → ℤ)
    (s : Scheduler α) (cfg : InstrumentationConfig) (ops : List (SchedulerOp α)) :
    ((s.instrument cfg).run deepEqual clock ops).received.written =
      if cfg.enablePrometheus ∧ (chainCollector cfg).2 then
        writtenTexts (chainCollector cfg).1 (publics clock 0 (s.runPublished deepEqual ops))
      else [] := by
  rw [(Instrumented.run_eq deepEqual clock (s.instrument cfg) ops).2.2.1]
  exact written_foldl_chain cfg _ _

/-- **Every text the Prometheus collector writes is well-formed exposition,
over any run of calls.**  From `NewScheduler` with `WithInstrumentation`
enabling Prometheus without a configured collector or duration buckets: if
every `RegisterWorkGroup` call of the run passes an id that needs no escape,
then each text the chain's collector writes to its `Writer` is well-formed
exposition, and each id its sample lines carry is that of a registered work
group. -/
theorem instrument_run_writes_exposition (deepEqual : Option α → Option α → Bool)
    (clock : ℕ → ℤ) (world : Option (World α)) (cfg : InstrumentationConfig)
    (ops : List (SchedulerOp α)) (hc : cfg.prometheusCollector = none)
    (hb : ∀ o ∈ cfg.prometheusOptions, o.2 = [])
    (hids : ∀ c, SchedulerOp.registerWorkGroup c ∈ ops → Exposition.PlainID c.id) :
    ∀ text ∈ (((newScheduler world).instrument cfg).run deepEqual clock ops).received.written,
      Exposition.valid text = true ∧ ∀ id ∈ Exposition.workGroupIDs text,
        ∃ g ∈ ((newScheduler world).run deepEqual ops).groupStates, id = g.toList := by
  intro text ht
  have hc0 : (chainCollector cfg).1 = newPrometheusWorkGroupCollector [] := by
    rcases ho : cfg.prometheusOptions with _ | o
    · simp [chainCollector, hc, ho]
    · simp [chainCollector, hc, ho, hb o ho]
  rw [written_instrument_run] at ht
  split_ifs at ht
  · obtain ⟨l, hl, rfl⟩ := mem_writtenTexts _ _ text ht
    have hreg := Scheduler.runPublished_registered deepEqual Exposition.PlainID ops _
      (Scheduler.orderInv_newScheduler world) (by simp [newScheduler]) hids
    have hx : ∀ x ∈ l, Exposition.PlainID x.workGroupID ∧
        x.workGroupID ∈ ((newScheduler world).run deepEqual ops).groupStates := fun x hx => by
      obtain ⟨sm, hsm, he⟩ := mem_publics clock 0 _ (hl.subset hx)
      exact he ▸ hreg sm hsm
    rw [hc0]
    obtain ⟨hbk, hk⟩ := Exposition.observe_run l (fun x h => (hx x h).1)
      (c := newPrometheusWorkGroupCollector []) (fun _ h => absurd h (List.not_mem_nil _))
    refine ⟨Exposition.valid_writeMetrics hk hbk, fun id hid => ?_⟩
    rw [Exposition.workGroupIDs_writeMetrics hk hbk] at hid
    have hks : ∃ ks ∈ Exposition.sortedSamples
        (l.foldl PrometheusWorkGroupCollector.observeWorkGroup (newPrometheusWorkGroupCollector [])),
        id = ks.1.workGroupID.toList := by
      simp only [List.mem_append, List.mem_flatMap, List.mem_map, List.mem_cons,
        List.mem_singleton, List.not_mem_nil, or_false] at hid
      rcases hid with ((⟨ks, h, rfl | rfl⟩ | ⟨ks, h, rfl⟩) | ⟨ks, h, rfl⟩) | ⟨ks, h, rfl⟩ <;>
        exact ⟨ks, h, rfl⟩
    obtain ⟨ks, hks, rfl⟩ := hks
    rcases mem_samples_foldl l _ ks ((List.mem_insertionSort _).1 hks) with h | ⟨x, hxl, he⟩
    · exact absurd h (List.not_mem_nil _)
    · exact ⟨x.workGroupID, (hx x hxl).2, by rw [he]⟩
  · exact absurd ht (List.not_mem_nil _)

theorem instrument_run_writes_exposition_on_tick :
    (⟨false, false, 0, false, true, none, some (true, []), false⟩ : InstrumentationConfig).prometheusCollector = none ∧
    (∀ o ∈ (⟨false, false, 0, false, true, none, some (true, []), false⟩ :
      InstrumentationConfig).prometheusOptions, o.2 = []) ∧
    (∀ c, SchedulerOp.registerWorkGroup c ∈ ([.registerWorkGroup ⟨"A", .synchronized,
        [some ⟨"a1", [], [], [], ⟨0, 0⟩, false⟩], ⟨0, 0⟩, .abort⟩,
        .tick ⟨fun _ => none, fun _ _ _ => ⟨[some .createEntity], false, none⟩⟩] :
          List (SchedulerOp ℕ)) → Exposition.PlainID c.id) ∧
    ((((newScheduler none : Scheduler ℕ).instrument
        ⟨false, false, 0, false, true, none, some (true, []), false⟩).run (· == ·) (fun _ => 5000000)
        [.registerWorkGroup ⟨"A", .synchronized, [some ⟨"a1", [], [], [], ⟨0, 0⟩, false⟩], ⟨0, 0⟩,
          .abort⟩, .tick ⟨fun _ => none, fun _ _ _ => ⟨[some .createEntity], false, none⟩⟩]).received.written).length = 1 ∧
    ∀ text ∈ (((newScheduler none : Scheduler ℕ).instrument
        ⟨false, false, 0, false, true, none, some (true, []), false⟩).run (· == ·) (fun _ => 5000000)
        [.registerWorkGroup ⟨"A", .synchronized, [some ⟨"a1", [], [], [], ⟨0, 0⟩, false⟩], ⟨0, 0⟩,
          .abort⟩, .tick ⟨fun _ => none, fun _ _ _ => ⟨[some .createEntity], false, none⟩⟩]).received.written,
      Exposition.valid text = true ∧ ∀ id ∈ Exposition.workGroupIDs text,
        ∃ g ∈ ((newScheduler none : Scheduler ℕ).run (· == ·) [.registerWorkGroup ⟨"A", .synchronized,
          [some ⟨"a1", [], [], [], ⟨0, 0⟩, false⟩], ⟨0, 0⟩, .abort⟩,
          .tick ⟨fun _ => none, fun _ _ _ => ⟨[some .createEntity], false, none⟩⟩]).groupStates,
          id = g.toList := by
  refine ⟨rfl, fun o ho => by cases ho; rfl, fun c hc => ?_, by decide,
    instrument_run_writes_exposition _ _ _ _ _ rfl (fun o ho => by cases ho; rfl) fun c hc => ?_⟩ <;>
  · simp only [List.mem_cons, SchedulerOp.registerWorkGroup.injEq, reduceCtorEq] at hc
    rcases hc with rfl | h | h
    · decide
    · exact h.elim
    · exact absurd h (List.not_mem_nil _)

end Ecs

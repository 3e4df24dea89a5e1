/-
# Work groups and their registration

`api.go` (`TickInterval`, `WorkGroupMode`, `ErrorPolicy`, `AccessMode`,
`ResourceAccess`, `SystemDescriptor`, `WorkGroupConfig`) and the registration
half of `basicScheduler`: `NewScheduler`, `RegisterWorkGroup`,
`resolvePolicy`, `validateSystemsAccess`, `checkCrossGroupConflicts`,
`rebuildOrder` and the builder's `WithSyncOrder`, `WithErrorPolicy` and
`WithAsyncWorkers`.

Go's sets (`map[K]struct{}`) are lists without repeats and its maps are
`AList`s; a loop over a map runs over the list in insertion order, one of the
orders Go may pick, so only which error a conflicting call names depends on
that choice.  A system is its `SystemDescriptor`; what it does when it runs
belongs to the tick (`Ecs.Scheduler.Tick`).  `orderedGroups` is computed from
the tables: `rebuildOrder` runs after every write of `syncOrder`,
`registrationOrder` or `groupStates`, and its slice holds pointers to the
states, so the stored slice always equals the one computed from the current
tables.  The worker pool is only its presence (`asyncPool`); its size does not
change what a tick computes.

`validateSystemsAccess_sound` says what a successful validation guarantees of
a group's systems and of the four sets it returns.  `RegInv` is what the
tables keep over every sequence of registrations:
`registration_keeps_tables_consistent`.
-/

import Ecs.World

namespace Ecs

variable {α : Type}

/-! ### The configuration types -/

/-- Go's `TickInterval`. -/
structure TickInterval where
  every : UInt32
  offset : UInt32
deriving DecidableEq, Repr

/-- Go's `WorkGroupMode`, its two named values. -/
inductive WorkGroupMode
  | synchronized
  | async
deriving DecidableEq, Repr

/-- Go's `ErrorPolicy`.  `abort` is the zero value, which `resolvePolicy` reads
as "not given". -/
inductive ErrorPolicy
  | abort
  | «continue»
  | retry
deriving DecidableEq, Repr

/-- Go's `AccessMode`. -/
inductive AccessMode
  | read
  | write
deriving DecidableEq, Repr

/-- Go's `ResourceAccess`. -/
structure ResourceAccess where
  name : String
  mode : AccessMode
deriving DecidableEq, Repr

/-- Go's `SystemDescriptor`, without `Tags`, which nothing reads. -/
structure SystemDescriptor where
  name : String
  reads : List ComponentType
  writes : List ComponentType
  resources : List ResourceAccess
  runEvery : TickInterval
  asyncAllowed : Bool
deriving DecidableEq, Repr

/-- Go's `WorkGroupConfig`; a `nil` system is `none`.  `Priority` is copied into
the group's state and read by nothing, so it is left out. -/
structure WorkGroupConfig where
  id : WorkGroupID
  mode : WorkGroupMode
  systems : List (Option SystemDescriptor)
  interval : TickInterval
  errorPolicy : ErrorPolicy
deriving DecidableEq, Repr

/-- Go's `workGroupState`, without `priority`. -/
structure WorkGroupState where
  id : WorkGroupID
  mode : WorkGroupMode
  systems : List SystemDescriptor
  interval : TickInterval
  lastRun : UInt64
  policy : ErrorPolicy
  readSet : List ComponentType
  writeSet : List ComponentType
  resourceReads : List String
  resourceWrites : List String
deriving DecidableEq, Repr

/-- Go's `basicScheduler`: the world it drives and its tables.  `asyncPool`
says whether `asyncPool` is non-`nil`.  The logger, tracer, observer and the
pool of command buffers are left out: no table depends on them. -/
structure Scheduler (α : Type) where
  world : World α
  groupStates : AList (fun _ : WorkGroupID => WorkGroupState)
  registrationOrder : List WorkGroupID
  syncOrder : List WorkGroupID
  asyncPool : Bool
  errorPolicies : AList (fun _ : WorkGroupID => ErrorPolicy)
  tickIndex : UInt64
  componentOwners : AList (fun _ : ComponentType => WorkGroupID)
  resourceOwners : AList (fun _ : String => WorkGroupID)
  resourceReaders : AList (fun _ : String => List WorkGroupID)

/-- Go's `NewScheduler(world)`; a `nil` world is `NewWorld()`. -/
def newScheduler (world : Option (World α)) : Scheduler α :=
  ⟨world.getD newWorld, ∅, [], [], false, ∅, 0, ∅, ∅, ∅⟩

/-! ### `validateSystemsAccess` -/

/-- The maps `validateSystemsAccess` fills: the four sets it returns and the
two maps (`writeOwners`, `resourceWriteOwners`) that name the system which
first wrote a key. -/
structure AccessSets where
  reads : List ComponentType
  writes : List ComponentType
  resourceReads : List String
  resourceWrites : List String
  writeOwners : AList (fun _ : ComponentType => String)
  resourceWriteOwners : AList (fun _ : String => String)

/-- The empty maps the function starts from. -/
def AccessSets.empty : AccessSets := ⟨[], [], [], [], ∅, ∅⟩

/-- The three checks on a system of an async group, in the code's order. -/
def asyncAccessError (name : String) (desc : SystemDescriptor) : Option Error :=
  if !desc.asyncAllowed then some (.asyncSystemNotAllowed name)
  else if desc.writes ≠ [] then some (.asyncWritesNotSupported name desc.writes)
  else (desc.resources.find? (·.mode = .write)).map
    fun res => .asyncResourceWritesNotSupported name res.name

/-- The loop over one system's `Writes`; `seenLocal` holds the components this
system wrote before. -/
def addWrites (name : String) : List ComponentType → List ComponentType → AccessSets →
    Except Error AccessSets
  | _, [], acc => .ok acc
  | seenLocal, comp :: comps, acc =>
    if comp ∈ seenLocal then .error (.duplicateWriteInSystem name comp)
    else
      match acc.writeOwners.lookup comp with
      | some owner => .error (.duplicateWrite owner name comp)
      | none =>
        addWrites name (comp :: seenLocal) comps
          { acc with
            writeOwners := acc.writeOwners.insert comp name
            writes := acc.writes.insert comp }

/-- The loop over one system's `Resources`: an empty name is skipped, a write
is checked like a component write and also counts as a read. -/
def addResources (name : String) : List String → List ResourceAccess → AccessSets →
    Except Error AccessSets
  | _, [], acc => .ok acc
  | seenLocal, res :: rest, acc =>
    if res.name = "" then addResources name seenLocal rest acc
    else
      match res.mode with
      | .write =>
        if res.name ∈ seenLocal then .error (.duplicateResourceWriteInSystem name res.name)
        else
          match acc.resourceWriteOwners.lookup res.name with
          | some owner => .error (.duplicateResourceWrite owner name res.name)
          | none =>
            addResources name (res.name :: seenLocal) rest
              { acc with
                resourceWriteOwners := acc.resourceWriteOwners.insert res.name name
                resourceWrites := acc.resourceWrites.insert res.name
                resourceReads := acc.resourceReads.insert res.name }
      | .read =>
        addResources name seenLocal rest { acc with resourceReads := acc.resourceReads.insert res.name }

/-- One turn of the loop over the systems: the async checks, then `Reads`,
`Writes` and `Resources`.  Errors name an unnamed system `<unnamed>`. -/
def validateSystem (mode : WorkGroupMode) (acc : AccessSets) (desc : SystemDescriptor) :
    Except Error AccessSets :=
  let name := if desc.name = "" then "<unnamed>" else desc.name
  match (if mode = .async then asyncAccessError name desc else none) with
  | some err => .error err
  | none =>
    (addWrites name [] desc.writes
      { acc with reads := desc.reads.foldl (fun r c => r.insert c) acc.reads }).bind
      (addResources name [] desc.resources)

/-- Go's `validateSystemsAccess`. -/
def validateSystemsAccess (mode : WorkGroupMode) (systems : List SystemDescriptor) :
    Except Error AccessSets :=
  systems.foldlM (validateSystem mode) .empty

/-! ### Registration -/

namespace Scheduler

/-- Go's `resolvePolicy`. -/
def resolvePolicy (s : Scheduler α) (id : WorkGroupID) (supplied : ErrorPolicy) : ErrorPolicy :=
  if supplied ≠ .abort then supplied else (s.errorPolicies.lookup id).getD .abort

/-- The owner of `k` in `owners` when it is not the group `id`. -/
def otherOwner {κ : Type} [DecidableEq κ] (owners : AList (fun _ : κ => WorkGroupID))
    (id : WorkGroupID) (k : κ) : Option WorkGroupID :=
  (owners.lookup k).filter (· ≠ id)

/-- A reader of `res` other than the group `id`. -/
def otherReader (s : Scheduler α) (id : WorkGroupID) (res : String) : Option WorkGroupID :=
  ((s.resourceReaders.lookup res).getD []).find? (· ≠ id)

/-- Go's `checkCrossGroupConflicts`: its three loops, each stopping at the first
conflict. -/
def checkCrossGroupConflicts (s : Scheduler α) (state : WorkGroupState) : Option Error :=
  (state.writeSet.findSome? fun comp =>
    (otherOwner s.componentOwners state.id comp).map (.componentOwned · comp)) <|>
  (state.resourceWrites.findSome? fun res =>
    (otherOwner s.resourceOwners state.id res).map (.resourceOwned · res) <|>
    (s.otherReader state.id res).map (.resourceRead · res)) <|>
  (state.resourceReads.findSome? fun res =>
    (otherOwner s.resourceOwners state.id res).map (.resourceWritten · res))

/-- The state `RegisterWorkGroup` builds from a validated configuration. -/
def newGroupState (s : Scheduler α) (cfg : WorkGroupConfig) (acc : AccessSets) :
    WorkGroupState :=
  { id := cfg.id, mode := cfg.mode, systems := cfg.systems.filterMap id,
    interval := cfg.interval, lastRun := 0, policy := s.resolvePolicy cfg.id cfg.errorPolicy,
    readSet := acc.reads, writeSet := acc.writes, resourceReads := acc.resourceReads,
    resourceWrites := acc.resourceWrites }

/-- The writes of a successful `RegisterWorkGroup`. -/
def addGroup (s : Scheduler α) (state : WorkGroupState) : Scheduler α :=
  { s with
    groupStates := s.groupStates.insert state.id state
    registrationOrder := s.registrationOrder ++ [state.id]
    componentOwners := state.writeSet.foldl (fun m comp => m.insert comp state.id) s.componentOwners
    resourceOwners := state.resourceWrites.foldl (fun m res => m.insert res state.id) s.resourceOwners
    resourceReaders := state.resourceReads.foldl
      (fun m res => m.insert res (((m.lookup res).getD []).insert state.id)) s.resourceReaders }

/-- Go's `RegisterWorkGroup`.  An async group creates the worker pool before
its systems are validated, so a call that fails afterwards keeps the pool. -/
def registerWorkGroup (s : Scheduler α) (cfg : WorkGroupConfig) : Scheduler α × Option Error :=
  if cfg.id = "" then (s, some .emptyWorkGroupID)
  else if cfg.id ∈ s.groupStates then (s, some (.workGroupAlreadyRegistered cfg.id))
  else
    let s := if cfg.mode = .async ∧ s.asyncPool = false then { s with asyncPool := true } else s
    match validateSystemsAccess cfg.mode (cfg.systems.filterMap id) with
    | .error err => (s, some err)
    | .ok acc =>
      match s.checkCrossGroupConflicts (s.newGroupState cfg acc) with
      | some err => (s, some err)
      | none => (s.addGroup (s.newGroupState cfg acc), none)

/-- Registration calls one after another, their errors dropped. -/
def registerAll (s : Scheduler α) (cfgs : List WorkGroupConfig) : Scheduler α :=
  cfgs.foldl (fun s cfg => (s.registerWorkGroup cfg).1) s

/-- Go's `rebuildOrder`: the registered groups of `syncOrder`, in its order and
as often as it lists them, then the others in registration order. -/
def rebuildOrder (groupStates : AList (fun _ : WorkGroupID => WorkGroupState))
    (syncOrder registrationOrder : List WorkGroupID) : List WorkGroupState :=
  (registrationOrder.foldl
    (fun (acc : List WorkGroupState × List WorkGroupID) id =>
      if id ∈ acc.2 then acc
      else
        match groupStates.lookup id with
        | some state => (acc.1 ++ [state], id :: acc.2)
        | none => acc)
    (syncOrder.filterMap groupStates.lookup, syncOrder.filter (· ∈ groupStates))).1

/-- The scheduler's `orderedGroups`. -/
def orderedGroups (s : Scheduler α) : List WorkGroupState :=
  rebuildOrder s.groupStates s.syncOrder s.registrationOrder

/-- The builder's `WithSyncOrder`. -/
def withSyncOrder (s : Scheduler α) (order : List WorkGroupID) : Scheduler α :=
  { s with syncOrder := order }

/-- The builder's `WithErrorPolicy`: the registered group's policy is resolved
again from its current one, so only a group whose policy is `abort` takes the
new policy. -/
def withErrorPolicy (s : Scheduler α) (id : WorkGroupID) (policy : ErrorPolicy) :
    Scheduler α :=
  let s := { s with
    errorPolicies := if policy ≠ .abort then s.errorPolicies.insert id policy
      else s.errorPolicies.erase id }
  match s.groupStates.lookup id with
  | some state =>
    { s with
      groupStates := s.groupStates.insert id ({ state with policy := s.resolvePolicy id state.policy }) }
  | none => s

/-- The builder's `WithAsyncWorkers`: the pool is closed and, for a positive
count, replaced. -/
def withAsyncWorkers (s : Scheduler α) (count : ℤ) : Scheduler α :=
  { s with asyncPool := decide (0 < count) }

end Scheduler

/-! ### What a successful validation guarantees -/

/-- The names a list of resource accesses writes: the non-empty names in write
mode. -/
def resourceWriteNames (ress : List ResourceAccess) : List String :=
  (ress.filter fun a => a.name ≠ "" ∧ a.mode = .write).map (·.name)

/-- The names a list of resource accesses uses, the empty name left out. -/
def resourceNames (ress : List ResourceAccess) : List String :=
  (ress.filter fun a => a.name ≠ "").map (·.name)

@[simp] theorem resourceWriteNames_nil : resourceWriteNames [] = [] := rfl

@[simp] theorem resourceNames_nil : resourceNames [] = [] := rfl

@[simp] theorem resourceWriteNames_cons (a : ResourceAccess) (ress : List ResourceAccess) :
    resourceWriteNames (a :: ress) =
      if a.name ≠ "" ∧ a.mode = .write then a.name :: resourceWriteNames ress
      else resourceWriteNames ress := by
  unfold resourceWriteNames; split_ifs with h <;> simp [List.filter_cons, h]

@[simp] theorem resourceNames_cons (a : ResourceAccess) (ress : List ResourceAccess) :
    resourceNames (a :: ress) =
      if a.name ≠ "" then a.name :: resourceNames ress else resourceNames ress := by
  unfold resourceNames; split_ifs with h <;> simp [List.filter_cons, h]

/-- What validation requires of the systems of a group: no system writes a
component or a resource twice, no two systems share a write, and the systems
of an async group allow it and write nothing. -/
structure AccessOk (mode : WorkGroupMode) (systems : List SystemDescriptor) : Prop where
  writes_nodup : ∀ d ∈ systems, d.writes.Nodup
  resourceWrites_nodup : ∀ d ∈ systems, (resourceWriteNames d.resources).Nodup
  writes_pairwise : systems.Pairwise fun d₁ d₂ => d₁.writes.Disjoint d₂.writes
  resourceWrites_pairwise :
    systems.Pairwise fun d₁ d₂ =>
      (resourceWriteNames d₁.resources).Disjoint (resourceWriteNames d₂.resources)
  async : mode = .async →
    ∀ d ∈ systems, d.asyncAllowed = true ∧ d.writes = [] ∧ ∀ a ∈ d.resources, a.mode ≠ .write

/-- The maps are those of the systems: each set is the union of what the
systems declare, and each owner map has the keys of its set. -/
structure AccessSets.Describes (systems : List SystemDescriptor) (acc : AccessSets) : Prop where
  reads : ∀ c, c ∈ acc.reads ↔ ∃ d ∈ systems, c ∈ d.reads
  writes : ∀ c, c ∈ acc.writes ↔ ∃ d ∈ systems, c ∈ d.writes
  resourceReads : ∀ r, r ∈ acc.resourceReads ↔ ∃ d ∈ systems, r ∈ resourceNames d.resources
  resourceWrites : ∀ r, r ∈ acc.resourceWrites ↔ ∃ d ∈ systems, r ∈ resourceWriteNames d.resources
  writeOwners : ∀ c, c ∈ acc.writeOwners ↔ c ∈ acc.writes
  resourceWriteOwners : ∀ r, r ∈ acc.resourceWriteOwners ↔ r ∈ acc.resourceWrites

theorem mem_foldl_insert {β : Type} [DecidableEq β] (xs l : List β) (c : β) :
    c ∈ xs.foldl (fun r x => r.insert x) l ↔ c ∈ l ∨ c ∈ xs := by
  induction xs generalizing l with
  | nil => simp
  | cons x xs ih =>
    simp only [List.foldl_cons, ih, List.mem_insert_iff, List.mem_cons]
    exact or_assoc.trans or_left_comm

theorem asyncAccessError_eq_none {name : String} {desc : SystemDescriptor} :
    asyncAccessError name desc = none ↔
      desc.asyncAllowed = true ∧ desc.writes = [] ∧ ∀ a ∈ desc.resources, a.mode ≠ .write := by
  unfold asyncAccessError
  split_ifs with h₁ h₂ <;> simp_all [List.find?_eq_none]

/-- One turn of a write loop: a key new to the system and to the owner map,
then keys each new to both once it was added. -/
theorem fresh_cons {β : Type} {k : String} {ks seen : List String}
    {owners : AList (fun _ : String => β)} {v : β} (hs : k ∉ seen) (hnew : k ∉ owners)
    (hnd : ks.Nodup) (hks : ∀ c ∈ ks, c ∉ k :: seen ∧ c ∉ owners.insert k v) :
    (k :: ks).Nodup ∧ ∀ c ∈ k :: ks, c ∉ seen ∧ c ∉ owners := by
  refine ⟨List.nodup_cons.2 ⟨fun hc => (hks k hc).1 (List.mem_cons_self _ _), hnd⟩, ?_⟩
  simp only [List.mem_cons, forall_eq_or_imp]
  refine ⟨⟨hs, hnew⟩, fun c hc => ?_⟩
  have := hks c hc
  simp only [List.mem_cons, not_or, AList.mem_insert] at this
  exact ⟨this.1.2, this.2.2⟩

/-- What a successful run of the `Writes` loop checked and wrote. -/
theorem addWrites_ok {name : String} {seen comps : List ComponentType} {acc acc' : AccessSets}
    (h : addWrites name seen comps acc = .ok acc') :
    comps.Nodup ∧ (∀ c ∈ comps, c ∉ seen ∧ c ∉ acc.writeOwners) ∧
      (∀ c, c ∈ acc'.writes ↔ c ∈ acc.writes ∨ c ∈ comps) ∧
      (∀ c, c ∈ acc'.writeOwners ↔ c ∈ acc.writeOwners ∨ c ∈ comps) ∧
      acc'.reads = acc.reads ∧ acc'.resourceReads = acc.resourceReads ∧
      acc'.resourceWrites = acc.resourceWrites ∧
      acc'.resourceWriteOwners = acc.resourceWriteOwners := by
  induction comps generalizing seen acc with
  | nil => cases h; simp
  | cons comp comps ih =>
    simp only [addWrites] at h
    split_ifs at h with hs
    split at h
    · cases h
    · next hl =>
      obtain ⟨hnd, hnot, hw, ho, h₁, h₂, h₃, h₄⟩ := ih h
      obtain ⟨hnd', hnot'⟩ := fresh_cons hs (AList.lookup_eq_none.1 hl) hnd hnot
      refine ⟨hnd', hnot', fun c => ?_, fun c => ?_, h₁, h₂, h₃, h₄⟩
      · simp only [hw, List.mem_insert_iff, List.mem_cons]; exact or_assoc.trans or_left_comm
      · simp only [ho, AList.mem_insert, List.mem_cons]; exact or_assoc.trans or_left_comm

/-- What a successful run of the `Resources` loop checked and wrote. -/
theorem addResources_ok {name : String} {seen : List String} {ress : List ResourceAccess}
    {acc acc' : AccessSets} (h : addResources name seen ress acc = .ok acc') :
    (resourceWriteNames ress).Nodup ∧
      (∀ r ∈ resourceWriteNames ress, r ∉ seen ∧ r ∉ acc.resourceWriteOwners) ∧
      (∀ r, r ∈ acc'.resourceWrites ↔ r ∈ acc.resourceWrites ∨ r ∈ resourceWriteNames ress) ∧
      (∀ r, r ∈ acc'.resourceWriteOwners ↔
        r ∈ acc.resourceWriteOwners ∨ r ∈ resourceWriteNames ress) ∧
      (∀ r, r ∈ acc'.resourceReads ↔ r ∈ acc.resourceReads ∨ r ∈ resourceNames ress) ∧
      acc'.reads = acc.reads ∧ acc'.writes = acc.writes ∧ acc'.writeOwners = acc.writeOwners := by
  induction ress generalizing seen acc with
  | nil => cases h; simp
  | cons res ress ih =>
    by_cases he : res.name = ""
    · simp only [addResources, he, if_true] at h
      simpa [he] using ih h
    cases hm : res.mode with
    | read =>
      simp only [addResources, he, hm, if_false] at h
      obtain ⟨hnd, hnot, hw, ho, hr, h₁, h₂, h₃⟩ := ih h
      simp only [resourceWriteNames_cons, resourceNames_cons, he, hm, ne_eq, not_false_eq_true,
        if_true, reduceCtorEq, and_false, if_false]
      refine ⟨hnd, hnot, hw, ho, fun r => ?_, h₁, h₂, h₃⟩
      simp only [hr, List.mem_insert_iff, List.mem_cons]; exact or_assoc.trans or_left_comm
    | write =>
      simp only [addResources, he, hm, if_false] at h
      split_ifs at h with hs
      split at h
      · cases h
      · next hl =>
        obtain ⟨hnd, hnot, hw, ho, hr, h₁, h₂, h₃⟩ := ih h
        obtain ⟨hnd', hnot'⟩ := fresh_cons hs (AList.lookup_eq_none.1 hl) hnd hnot
        simp only [resourceWriteNames_cons, resourceNames_cons, he, hm, ne_eq,
          not_false_eq_true, and_self, if_true]
        refine ⟨hnd', hnot', fun r => ?_, fun r => ?_, fun r => ?_, h₁, h₂, h₃⟩
        · simp only [hw, List.mem_insert_iff, List.mem_cons]; exact or_assoc.trans or_left_comm
        · simp only [ho, AList.mem_insert, List.mem_cons]; exact or_assoc.trans or_left_comm
        · simp only [hr, List.mem_insert_iff, List.mem_cons]; exact or_assoc.trans or_left_comm

theorem describes_empty : AccessSets.empty.Describes [] := by
  constructor <;> simp [AccessSets.empty]

/-- One system validated: the maps now describe it too, and it passed the
checks against the systems before it. -/
theorem validateSystem_ok {mode : WorkGroupMode} {done : List SystemDescriptor}
    {acc acc' : AccessSets} {d : SystemDescriptor} (hd : acc.Describes done)
    (hk : AccessOk mode done) (h : validateSystem mode acc d = .ok acc') :
    acc'.Describes (done ++ [d]) ∧ AccessOk mode (done ++ [d]) := by
  simp only [validateSystem] at h
  split at h
  · cases h
  · next hasync =>
    cases hw : addWrites (if d.name = "" then "<unnamed>" else d.name) [] d.writes
        { acc with reads := d.reads.foldl (fun r c => r.insert c) acc.reads } with
    | error e => simp [hw, Except.bind] at h
    | ok a =>
      simp only [hw, Except.bind] at h
      obtain ⟨wnd, wnot, ww, wo, wr, wrr, wrw, wro⟩ := addWrites_ok hw
      obtain ⟨rnd, rnot, rw, ro, rr, r₁, r₂, r₃⟩ := addResources_ok h
      simp only at wnot wr wrr wrw wro
      have hex : ∀ (P : SystemDescriptor → Prop),
          (∃ x ∈ done ++ [d], P x) ↔ (∃ x ∈ done, P x) ∨ P d := by
        intro P; simp [or_and_right, exists_or]
      refine ⟨⟨fun c => ?_, fun c => ?_, fun r => ?_, fun r => ?_, fun c => ?_, fun r => ?_⟩,
        ⟨?_, ?_, ?_, ?_, ?_⟩⟩
      · rw [r₁, wr, mem_foldl_insert, hd.reads, hex]
      · rw [r₂, ww, hd.writes, hex]
      · rw [rr, wrr, hd.resourceReads, hex]
      · rw [rw, wrw, hd.resourceWrites, hex]
      · rw [r₃, wo, r₂, ww, hd.writeOwners]
      · rw [ro, wro, rw, wrw, hd.resourceWriteOwners]
      · simpa [or_imp, forall_and] using ⟨hk.writes_nodup, wnd⟩
      · simpa [or_imp, forall_and] using ⟨hk.resourceWrites_nodup, rnd⟩
      · refine List.pairwise_append.2 ⟨hk.writes_pairwise, List.pairwise_singleton _ _, ?_⟩
        intro a ha b hb c hca hcb
        rw [List.mem_singleton] at hb; subst hb
        exact (wnot c hcb).2 ((hd.writeOwners c).2 ((hd.writes c).2 ⟨a, ha, hca⟩))
      · refine List.pairwise_append.2 ⟨hk.resourceWrites_pairwise, List.pairwise_singleton _ _, ?_⟩
        intro a ha b hb r hra hrb
        rw [List.mem_singleton] at hb; subst hb
        refine (rnot r hrb).2 ?_
        rw [wro]
        exact (hd.resourceWriteOwners r).2 ((hd.resourceWrites r).2 ⟨a, ha, hra⟩)
      · intro hm x hx
        rcases List.mem_append.1 hx with hx | hx
        · exact hk.async hm x hx
        · rw [List.mem_singleton] at hx; subst hx
          simp only [hm, if_true] at hasync
          exact asyncAccessError_eq_none.1 hasync

theorem foldlM_validateSystem_ok {mode : WorkGroupMode} :
    ∀ {systems done : List SystemDescriptor} {acc acc' : AccessSets}, acc.Describes done →
      AccessOk mode done → systems.foldlM (validateSystem mode) acc = .ok acc' →
      acc'.Describes (done ++ systems) ∧ AccessOk mode (done ++ systems)
  | [], done, acc, acc', hd, hk, h => by cases h; simpa using ⟨hd, hk⟩
  | d :: systems, done, acc, acc', hd, hk, h => by
    rw [List.foldlM_cons] at h
    cases hv : validateSystem mode acc d with
    | error e => simp [hv] at h; cases h
    | ok a =>
      rw [hv] at h
      obtain ⟨hd', hk'⟩ := validateSystem_ok hd hk hv
      simpa using foldlM_validateSystem_ok hd' hk' h

/-- **What `validateSystemsAccess` guarantees.**  When it returns no error, the
systems passed every check (`AccessOk`) and the four sets are the unions of
what the systems declare. -/
theorem validateSystemsAccess_sound {mode : WorkGroupMode} {systems : List SystemDescriptor}
    {acc : AccessSets} (h : validateSystemsAccess mode systems = .ok acc) :
    acc.Describes systems ∧ AccessOk mode systems := by
  simpa using foldlM_validateSystem_ok describes_empty
    ⟨by simp, by simp, List.Pairwise.nil, List.Pairwise.nil, by simp⟩ h

/-! ### The registration invariant -/

/-- A registered group: its systems passed validation and its four sets are
the unions of what they declare. -/
structure WorkGroupState.WellFormed (st : WorkGroupState) : Prop where
  access : AccessOk st.mode st.systems
  readSet : ∀ c, c ∈ st.readSet ↔ ∃ d ∈ st.systems, c ∈ d.reads
  writeSet : ∀ c, c ∈ st.writeSet ↔ ∃ d ∈ st.systems, c ∈ d.writes
  resourceReads : ∀ r, r ∈ st.resourceReads ↔ ∃ d ∈ st.systems, r ∈ resourceNames d.resources
  resourceWrites :
    ∀ r, r ∈ st.resourceWrites ↔ ∃ d ∈ st.systems, r ∈ resourceWriteNames d.resources

namespace Scheduler

/-- What the registration tables keep: every registered group is well formed
and stored under its id; two groups share no component write and no resource
write, and a resource one group writes no other group reads; the owner and
reader tables are exactly those of the registered groups, with no reader entry
left empty; `registrationOrder` lists the registered ids once each. -/
structure RegInv (s : Scheduler α) : Prop where
  wellFormed : ∀ g st, s.groupStates.lookup g = some st → st.id = g ∧ st.WellFormed
  writeSets_disjoint : ∀ g₁ g₂ st₁ st₂, s.groupStates.lookup g₁ = some st₁ →
    s.groupStates.lookup g₂ = some st₂ → g₁ ≠ g₂ → st₁.writeSet.Disjoint st₂.writeSet
  resourceWrites_disjoint : ∀ g₁ g₂ st₁ st₂, s.groupStates.lookup g₁ = some st₁ →
    s.groupStates.lookup g₂ = some st₂ → g₁ ≠ g₂ →
      st₁.resourceWrites.Disjoint st₂.resourceWrites
  written_not_read : ∀ g₁ g₂ st₁ st₂, s.groupStates.lookup g₁ = some st₁ →
    s.groupStates.lookup g₂ = some st₂ → g₁ ≠ g₂ →
      ∀ r ∈ st₁.resourceWrites, r ∉ st₂.resourceReads
  componentOwners : ∀ c g, s.componentOwners.lookup c = some g ↔
    ∃ st, s.groupStates.lookup g = some st ∧ c ∈ st.writeSet
  resourceOwners : ∀ r g, s.resourceOwners.lookup r = some g ↔
    ∃ st, s.groupStates.lookup g = some st ∧ r ∈ st.resourceWrites
  resourceReaders : ∀ r g, g ∈ (s.resourceReaders.lookup r).getD [] ↔
    ∃ st, s.groupStates.lookup g = some st ∧ r ∈ st.resourceReads
  resourceReaders_keys : ∀ r ∈ s.resourceReaders,
    ∃ g st, s.groupStates.lookup g = some st ∧ r ∈ st.resourceReads
  registrationOrder : ∀ g, g ∈ s.registrationOrder ↔ g ∈ s.groupStates
  registrationOrder_nodup : s.registrationOrder.Nodup

theorem regInv_newScheduler (world : Option (World α)) : (newScheduler world).RegInv := by
  constructor <;> simp [newScheduler]

/-- The invariant reads only the tables, not the pool. -/
theorem RegInv.withPool {s : Scheduler α} (h : s.RegInv) (b : Bool) :
    ({ s with asyncPool := b } : Scheduler α).RegInv :=
  ⟨h.1, h.2, h.3, h.4, h.5, h.6, h.7, h.8, h.9, h.10⟩

theorem otherOwner_eq_none {κ : Type} [DecidableEq κ] {owners : AList (fun _ : κ => WorkGroupID)}
    {id : WorkGroupID} {k : κ} :
    otherOwner owners id k = none ↔ ∀ g, owners.lookup k = some g → g = id := by
  unfold otherOwner
  cases owners.lookup k <;> simp [Option.filter]

/-- What a passed `checkCrossGroupConflicts` says of the tables. -/
theorem checkCrossGroupConflicts_eq_none {s : Scheduler α} {st : WorkGroupState}
    (h : s.checkCrossGroupConflicts st = none) :
    (∀ c ∈ st.writeSet, ∀ g, s.componentOwners.lookup c = some g → g = st.id) ∧
    (∀ r ∈ st.resourceWrites, (∀ g, s.resourceOwners.lookup r = some g → g = st.id) ∧
      ∀ g ∈ (s.resourceReaders.lookup r).getD [], g = st.id) ∧
    (∀ r ∈ st.resourceReads, ∀ g, s.resourceOwners.lookup r = some g → g = st.id) := by
  simp only [checkCrossGroupConflicts, Option.orElse_eq_none, List.findSome?_eq_none_iff,
    Option.map_eq_none', otherOwner_eq_none, otherReader, List.find?_eq_none,
    decide_eq_true_eq, not_not] at h
  exact ⟨h.1, fun r hr => h.2.1 r hr, h.2.2⟩

theorem lookup_foldl_insert {κ β : Type} [DecidableEq κ] (ks : List κ) (v : β)
    (m : AList (fun _ : κ => β)) (k : κ) :
    (ks.foldl (fun m k => m.insert k v) m).lookup k = if k ∈ ks then some v else m.lookup k := by
  induction ks generalizing m with
  | nil => simp
  | cons k' ks ih =>
    rw [List.foldl_cons, ih]
    by_cases hk : k = k'
    · subst hk; simp
    · simp [hk, AList.lookup_insert_ne hk]

theorem lookup_foldl_insertReader (ks : List String) (g : WorkGroupID)
    (m : AList (fun _ : String => List WorkGroupID)) (k : String) :
    (ks.foldl (fun m res => m.insert res (((m.lookup res).getD []).insert g)) m).lookup k =
      if k ∈ ks then some (((m.lookup k).getD []).insert g) else m.lookup k := by
  induction ks generalizing m with
  | nil => simp
  | cons k' ks ih =>
    rw [List.foldl_cons, ih]
    by_cases hk : k = k'
    · subst hk
      simp [List.insert_of_mem (List.mem_insert_self _ _)]
    · simp [hk, AList.lookup_insert_ne hk]

theorem lookup_insert_ite {κ β : Type} [DecidableEq κ] (m : AList (fun _ : κ => β))
    (k g : κ) (v : β) : (m.insert k v).lookup g = if g = k then some v else m.lookup g := by
  split_ifs with h
  · subst h; exact AList.lookup_insert _
  · exact AList.lookup_insert_ne h

theorem lookup_addGroup {s : Scheduler α} {st : WorkGroupState} {g : WorkGroupID} :
    (s.addGroup st).groupStates.lookup g =
      if g = st.id then some st else s.groupStates.lookup g :=
  lookup_insert_ite _ _ _ _

theorem ne_id_of_lookup {s : Scheduler α} {st stO : WorkGroupState} {g : WorkGroupID}
    (hid : st.id ∉ s.groupStates) (hO : s.groupStates.lookup g = some stO) : g ≠ st.id :=
  fun he => hid (he ▸ AList.lookup_isSome.1 (by simp [hO]))

/-- A group that passed the conflict check shares nothing with a registered
group: neither write set, nor a resource one writes and the other reads. -/
theorem RegInv.fresh_of_check {s : Scheduler α} {st stO : WorkGroupState} {g : WorkGroupID}
    (h : s.RegInv) (hid : st.id ∉ s.groupStates) (hc : s.checkCrossGroupConflicts st = none)
    (hO : s.groupStates.lookup g = some stO) :
    st.writeSet.Disjoint stO.writeSet ∧ st.resourceWrites.Disjoint stO.resourceWrites ∧
      (∀ r ∈ st.resourceWrites, r ∉ stO.resourceReads) ∧
      (∀ r ∈ stO.resourceWrites, r ∉ st.resourceReads) := by
  obtain ⟨hcw, hcr, hcrr⟩ := checkCrossGroupConflicts_eq_none hc
  have hne := ne_id_of_lookup hid hO
  refine ⟨fun c h₁ h₂ => hne (hcw c h₁ g ((h.componentOwners c g).2 ⟨stO, hO, h₂⟩)),
    fun r h₁ h₂ => hne ((hcr r h₁).1 g ((h.resourceOwners r g).2 ⟨stO, hO, h₂⟩)),
    fun r h₁ h₂ => hne ((hcr r h₁).2 g ((h.resourceReaders r g).2 ⟨stO, hO, h₂⟩)),
    fun r h₁ h₂ => hne (hcrr r h₂ g ((h.resourceOwners r g).2 ⟨stO, hO, h₁⟩))⟩

/-- A relation that holds between any two distinct registered groups still
holds after adding a group that has it, both ways, with each of them. -/
theorem addGroup_pairwise {s : Scheduler α} {st : WorkGroupState}
    (R : WorkGroupState → WorkGroupState → Prop)
    (h : ∀ g₁ g₂ st₁ st₂, s.groupStates.lookup g₁ = some st₁ →
      s.groupStates.lookup g₂ = some st₂ → g₁ ≠ g₂ → R st₁ st₂)
    (hnew : ∀ g stO, s.groupStates.lookup g = some stO → R st stO ∧ R stO st) :
    ∀ g₁ g₂ st₁ st₂, (s.addGroup st).groupStates.lookup g₁ = some st₁ →
      (s.addGroup st).groupStates.lookup g₂ = some st₂ → g₁ ≠ g₂ → R st₁ st₂ := by
  intro g₁ g₂ st₁ st₂ h₁ h₂ hne
  rw [lookup_addGroup] at h₁ h₂
  split_ifs at h₁ h₂ with he₁ he₂ he₂
  · exact absurd (he₁.trans he₂.symm) hne
  · cases h₁; exact (hnew _ _ h₂).1
  · cases h₂; exact (hnew _ _ h₁).2
  · exact h g₁ g₂ st₁ st₂ h₁ h₂ hne

/-- An owner table that maps each key to the registered group whose `sel` set
holds it stays so when a group sharing no key with the others is added and its
keys are inserted under its id. -/
theorem addGroup_owners {s : Scheduler α} {st : WorkGroupState} (hid : st.id ∉ s.groupStates)
    (sel : WorkGroupState → List String) {owners : AList (fun _ : String => WorkGroupID)}
    (h : ∀ k g, owners.lookup k = some g ↔ ∃ st', s.groupStates.lookup g = some st' ∧ k ∈ sel st')
    (hnew : ∀ g stO, s.groupStates.lookup g = some stO → (sel st).Disjoint (sel stO)) (k : String)
    (g : WorkGroupID) :
    ((sel st).foldl (fun m k => m.insert k st.id) owners).lookup k = some g ↔
      ∃ st', (s.addGroup st).groupStates.lookup g = some st' ∧ k ∈ sel st' := by
  simp only [lookup_foldl_insert, lookup_addGroup]
  by_cases hk : k ∈ sel st
  · simp only [hk, if_true, Option.some.injEq]
    constructor
    · rintro rfl; exact ⟨st, by simp, hk⟩
    · rintro ⟨st', hg, hks⟩
      split_ifs at hg with he
      · exact he.symm
      · exact absurd hks (hnew _ _ hg hk)
  · simp only [hk, if_false, h]
    constructor
    · rintro ⟨st', hg, hks⟩; exact ⟨st', by simp [ne_id_of_lookup hid hg, hg], hks⟩
    · rintro ⟨st', hg, hks⟩
      split_ifs at hg with he
      · cases hg; exact absurd hks hk
      · exact ⟨st', hg, hks⟩

/-- A successful registration keeps the invariant. -/
theorem RegInv.addGroup {s : Scheduler α} {st : WorkGroupState} (h : s.RegInv)
    (hid : st.id ∉ s.groupStates) (hwf : st.WellFormed)
    (hc : s.checkCrossGroupConflicts st = none) : (s.addGroup st).RegInv := by
  have fresh := fun {g stO} (hO : s.groupStates.lookup g = some stO) =>
    h.fresh_of_check hid hc hO
  constructor
  · intro g st' hg
    rw [lookup_addGroup] at hg
    split_ifs at hg with he
    · cases hg; exact ⟨he.symm, hwf⟩
    · exact h.wellFormed g st' hg
  · exact addGroup_pairwise _ h.writeSets_disjoint fun _ _ hO =>
      ⟨(fresh hO).1, List.disjoint_comm.1 (fresh hO).1⟩
  · exact addGroup_pairwise _ h.resourceWrites_disjoint fun _ _ hO =>
      ⟨(fresh hO).2.1, List.disjoint_comm.1 (fresh hO).2.1⟩
  · exact addGroup_pairwise (fun st₁ st₂ => ∀ r ∈ st₁.resourceWrites, r ∉ st₂.resourceReads)
      h.written_not_read fun _ _ hO => ⟨(fresh hO).2.2.1, (fresh hO).2.2.2⟩
  · exact addGroup_owners hid (·.writeSet) h.componentOwners fun _ _ hO => (fresh hO).1
  · exact addGroup_owners hid (·.resourceWrites) h.resourceOwners fun _ _ hO => (fresh hO).2.1
  · intro r g
    simp only [Scheduler.addGroup, lookup_foldl_insertReader, lookup_insert_ite]
    have hiff : (∃ st', (if g = st.id then some st else s.groupStates.lookup g) = some st' ∧
        r ∈ st'.resourceReads) ↔
        (g = st.id ∧ r ∈ st.resourceReads) ∨ g ∈ (s.resourceReaders.lookup r).getD [] := by
      rw [h.resourceReaders]
      constructor
      · rintro ⟨st', hg, hrs⟩
        split_ifs at hg with he
        · cases hg; exact .inl ⟨he, hrs⟩
        · exact .inr ⟨st', hg, hrs⟩
      · rintro (⟨he, hrs⟩ | ⟨st', hg, hrs⟩)
        · exact ⟨st, by simp [he], hrs⟩
        · exact ⟨st', by simp [ne_id_of_lookup hid hg, hg], hrs⟩
    rw [hiff]
    split_ifs with hr <;> simp [hr]
  · intro r hr
    have hk := AList.lookup_isSome.2 hr
    simp only [Scheduler.addGroup, lookup_foldl_insertReader] at hk
    split_ifs at hk with hrs
    · exact ⟨st.id, st, by simp [lookup_addGroup], hrs⟩
    · obtain ⟨g, st', hg, hrr⟩ := h.resourceReaders_keys r (AList.lookup_isSome.1 hk)
      exact ⟨g, st', by rw [lookup_addGroup, if_neg (ne_id_of_lookup hid hg), hg], hrr⟩
  · intro g
    simp only [Scheduler.addGroup, List.mem_append, List.mem_singleton, h.registrationOrder,
      AList.mem_insert]
    exact or_comm
  · refine List.nodup_append.2 ⟨h.registrationOrder_nodup, List.nodup_singleton _, ?_⟩
    intro g hg hg'
    rw [List.mem_singleton] at hg'
    subst hg'
    exact hid ((h.registrationOrder _).1 hg)

theorem newGroupState_wellFormed {s : Scheduler α} {cfg : WorkGroupConfig} {acc : AccessSets}
    (h : validateSystemsAccess cfg.mode (cfg.systems.filterMap id) = .ok acc) :
    (s.newGroupState cfg acc).WellFormed := by
  obtain ⟨hd, hk⟩ := validateSystemsAccess_sound h
  exact ⟨hk, hd.reads, hd.writes, hd.resourceReads, hd.resourceWrites⟩

/-- Everything `RegisterWorkGroup` can do: fail with at most the pool created,
or pass every check and add the group. -/
theorem registerWorkGroup_cases (s : Scheduler α) (cfg : WorkGroupConfig) :
    ((s.registerWorkGroup cfg).2 ≠ none ∧
      (s.registerWorkGroup cfg).1 = { s with asyncPool := (s.registerWorkGroup cfg).1.asyncPool }) ∨
    ((s.registerWorkGroup cfg).2 = none ∧ cfg.id ∉ s.groupStates ∧ ∃ acc,
      validateSystemsAccess cfg.mode (cfg.systems.filterMap id) = .ok acc ∧
      s.checkCrossGroupConflicts (s.newGroupState cfg acc) = none ∧
      (s.registerWorkGroup cfg).1 =
        { s.addGroup (s.newGroupState cfg acc) with
          asyncPool := (s.registerWorkGroup cfg).1.asyncPool }) := by
  unfold registerWorkGroup
  split_ifs with h₁ h₂ h₃ <;> try exact .inl ⟨by simp, rfl⟩
  all_goals
    dsimp only
    split
    · exact .inl ⟨by simp, rfl⟩
    · next acc hv =>
      split
      · exact .inl ⟨by simp, rfl⟩
      · next hc => exact .inr ⟨rfl, h₂, acc, hv, hc, rfl⟩

/-- One registration call keeps the invariant, whether it fails or not. -/
theorem RegInv.registerWorkGroup {s : Scheduler α} (h : s.RegInv) (cfg : WorkGroupConfig) :
    (s.registerWorkGroup cfg).1.RegInv := by
  rcases registerWorkGroup_cases s cfg with ⟨-, he⟩ | ⟨-, hid, acc, hv, hc, he⟩
  · rw [he]; exact h.withPool _
  · rw [he]; exact (h.addGroup hid (newGroupState_wellFormed hv) hc).withPool _

/-- **The registration tables.**  Over any sequence of
`RegisterWorkGroup` calls from a new scheduler, a call that returns an error
changes nothing but the worker pool it may have created, and after every call
the tables keep `RegInv`: disjoint component and resource writes, no resource
read by a group other than its writer, validated systems, and owner and reader
tables that are exactly those derived from the registered groups. -/
theorem registration_keeps_tables_consistent (world : Option (World α))
    (cfgs : List WorkGroupConfig) (cfg : WorkGroupConfig) :
    let s := (newScheduler world).registerAll cfgs
    let r := s.registerWorkGroup cfg
    (r.2 ≠ none → r.1 = { s with asyncPool := r.1.asyncPool }) ∧ r.1.RegInv := by
  intro s r
  have hs : s.RegInv := by
    suffices ∀ (s₀ : Scheduler α), s₀.RegInv → (s₀.registerAll cfgs).RegInv from
      this _ (regInv_newScheduler world)
    induction cfgs with
    | nil => exact fun _ h => h
    | cons c cs ih => exact fun s₀ h => ih _ (h.registerWorkGroup c)
  refine ⟨fun herr => ?_, hs.registerWorkGroup cfg⟩
  rcases registerWorkGroup_cases s cfg with ⟨-, he⟩ | ⟨hn, -⟩
  · exact he
  · exact absurd hn herr


/-! ### The order `Tick` runs the groups in -/

/-- The loop of `rebuildOrder` over `registrationOrder`, given by its two
branches: an id seen before is skipped, a registered one appended. -/
theorem foldl_rebuildOrder {gs : AList (fun _ : WorkGroupID => WorkGroupState)}
    {f : List WorkGroupState × List WorkGroupID → WorkGroupID →
      List WorkGroupState × List WorkGroupID}
    (hseen : ∀ acc id, id ∈ acc.2 → f acc id = acc)
    (hnew : ∀ acc id st, id ∉ acc.2 → gs.lookup id = some st →
      f acc id = (acc.1 ++ [st], id :: acc.2)) :
    ∀ (reg : List WorkGroupID), reg.Nodup → (∀ g ∈ reg, g ∈ gs) → ∀ xs seen,
      (reg.foldl f (xs, seen)).1 = xs ++ (reg.filter (· ∉ seen)).filterMap gs.lookup
  | [], _, _, xs, seen => by simp
  | id :: reg, hnd, hmem, xs, seen => by
    obtain ⟨hid, hnd⟩ := List.nodup_cons.1 hnd
    have hmem' : ∀ g ∈ reg, g ∈ gs := fun g hg => hmem g (List.mem_cons_of_mem _ hg)
    rw [List.foldl_cons]
    by_cases hs : id ∈ seen
    · rw [hseen _ _ hs, foldl_rebuildOrder hseen hnew reg hnd hmem', List.filter_cons_of_neg
        (by simpa using hs)]
    · obtain ⟨st, hst⟩ := Option.isSome_iff_exists.1 (AList.lookup_isSome.2 (hmem id
        (List.mem_cons_self _ _)))
      rw [hnew _ _ _ hs hst, foldl_rebuildOrder hseen hnew reg hnd hmem',
        List.filter_cons_of_pos (by simpa using hs)]
      simp only [List.filterMap_cons, hst, List.append_assoc, List.singleton_append]
      congr 3
      exact List.filter_congr fun g hg => by
        simp [show g ≠ id from fun he => hid (he ▸ hg)]

/-- **`rebuildOrder`**: while `registrationOrder` lists each registered group
once, the groups are those the sync order names, in its order and as often as
it names them, then the other registered groups in registration order. -/
theorem rebuildOrder_eq (gs : AList (fun _ : WorkGroupID => WorkGroupState))
    (sync reg : List WorkGroupID) (hnd : reg.Nodup) (hmem : ∀ g ∈ reg, g ∈ gs) :
    rebuildOrder gs sync reg =
      sync.filterMap gs.lookup ++ (reg.filter (· ∉ sync)).filterMap gs.lookup := by
  unfold rebuildOrder
  rw [foldl_rebuildOrder ?_ ?_ reg hnd hmem]
  · congr 2
    exact List.filter_congr fun g hg => by simp [hmem g hg]
  · intro acc id h; simp [h]
  · intro acc id st h hst; simp [h, hst]

/-- The ids of the states a list of ids names, when each state is stored under
its own id: the ids that are registered. -/
theorem map_id_filterMap_lookup {gs : AList (fun _ : WorkGroupID => WorkGroupState)}
    (hid : ∀ g st, gs.lookup g = some st → st.id = g) (l : List WorkGroupID) :
    (l.filterMap gs.lookup).map (·.id) = l.filter (· ∈ gs) := by
  induction l with
  | nil => rfl
  | cons g l ih =>
    rcases hg : gs.lookup g with _ | st
    · have : g ∉ gs := fun hm => by simp [← AList.lookup_isSome, hg] at hm
      simp [List.filterMap_cons, hg, ih, this]
    · have : g ∈ gs := AList.lookup_isSome.1 (by simp [hg])
      simp [List.filterMap_cons, hg, ih, this, hid g st hg]

end Scheduler

end Ecs

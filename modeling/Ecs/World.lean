/-
# The world: component stores and the commands that write them

`world.go` (`World`, `NewWorld`, `RegisterComponent`, `ViewComponent`,
`ApplyCommands`), `storage_provider.go` (`storageProvider` with
`RegisterComponent`, `View` and `Apply`) and `commands.go` (the four
commands and their `Apply`).

A world is its entity registry and its component stores, each made by the
dense or the shared strategy.  On any world a batch of commands runs from the
front and stops at the first command that fails, which returns its error with
the world it was given (`applyCommand_error`,
`applyCommands_stops_at_first_error`).  The resource container is left out: no command
reads or writes it.  The `*EntityID` a create command may carry receives the
new id in the caller's memory, outside the world, and is not modelled.

`Store.Inv` is what every store of a reachable world keeps, and `World.Inv`
holds of every world a run of registrations and command batches reaches
(`World.inv_run`).  On such a world, `component_command_frame` says what
adding or removing a component of an id that is not alive leaves alone: every
other id's `Has` and `Get`, in every store, except in a dense store, where
`Set` writes the slot of its index whatever the generation.
`add_stale_component_clobbers` replays that case: a stale id's component
replaces the component of the live id that recycled its index.
-/

import Ecs.Entity
import Ecs.Storage.Dense
import Ecs.Storage.Shared

namespace Ecs

open Storage

variable {α : Type}

/-- The strategies of `ecs/storage`: `NewDenseStrategy()` and
`NewSharedStrategy()`. -/
inductive StorageStrategy
  | dense
  | shared
deriving DecidableEq, Repr

/-- A `ComponentStore` one of them makes. -/
inductive Store (α : Type)
  | dense (s : DenseStore α)
  | shared (s : SharedStore α)

/-- `strategy.NewStore(t)`. -/
def StorageStrategy.newStore : StorageStrategy → ComponentType → Store α
  | .dense, t => .dense (newDenseStore t)
  | .shared, t => .shared (newSharedStore t)

namespace Store

variable (deepEqual : Option α → Option α → Bool)

/-- The store's `Has`. -/
def has : Store α → EntityID → Bool
  | .dense s, id => s.has id
  | .shared s, id => s.has id

/-- The store's `Get`. -/
def get : Store α → EntityID → Option α × Bool
  | .dense s, id => s.get id
  | .shared s, id => s.get id

/-- The store's `Set`. -/
def set : Store α → EntityID → Option α → Store α × Option Error
  | .dense s, id, v => (.dense (s.set id v).1, (s.set id v).2)
  | .shared s, id, v => (.shared (s.set deepEqual id v).1, (s.set deepEqual id v).2)

/-- The store's `Remove`. -/
def remove : Store α → EntityID → Store α × Bool
  | .dense s, id => (.dense (s.remove id).1, (s.remove id).2)
  | .shared s, id => (.shared (s.remove id).1, (s.remove id).2)

/-- Whether the dense strategy made the store. -/
def isDense : Store α → Bool
  | .dense _ => true
  | .shared _ => false

end Store

/-- Go's `World` with its default `storageProvider`: the registry and the
stores by component type. -/
structure World (α : Type) where
  registry : EntityRegistry
  stores : AList (fun _ : ComponentType => Store α)

/-- Go's `NewWorld()`. -/
def newWorld : World α := ⟨newEntityRegistry, ∅⟩

/-- A command as `NewCreateEntityCommand(nil)`, `NewDestroyEntityCommand`,
`NewAddComponentCommand` and `NewRemoveComponentCommand` build it. -/
inductive Command (α : Type)
  | createEntity
  | destroyEntity (entity : EntityID)
  | addComponent (entity : EntityID) (component : ComponentType) (value : Option α)
  | removeComponent (entity : EntityID) (component : ComponentType)
deriving DecidableEq

namespace World

section Go

variable (deepEqual : Option α → Option α → Bool)

/-- `storageProvider.RegisterComponent`; a `nil` strategy is `none`. Both
strategies return a store, so `ErrNilComponentStore` cannot occur. -/
def registerComponent (w : World α) (t : ComponentType) :
    Option StorageStrategy → World α × Option Error
  | none => (w, some .nilStorageStrategy)
  | some strategy =>
    if t ∈ w.stores then (w, some .componentAlreadyRegistered)
    else ({ w with stores := w.stores.insert t (strategy.newStore t) }, none)

/-- `storageProvider.View`. -/
def view (w : World α) (t : ComponentType) : Except Error (Store α) :=
  match w.stores.lookup t with
  | none => .error .componentNotRegistered
  | some store => .ok store

/-- `ViewComponent(t)` and then `Has(id)`; `false` when `t` is not
registered. -/
def hasComponent (w : World α) (t : ComponentType) (id : EntityID) : Bool :=
  match w.view t with
  | .ok store => store.has id
  | .error _ => false

/-- `ViewComponent(t)` and then `Get(id)`; `(nil, false)` when `t` is not
registered. -/
def getComponent (w : World α) (t : ComponentType) (id : EntityID) : Option α × Bool :=
  match w.view t with
  | .ok store => store.get id
  | .error _ => (none, false)

/-- The `Apply` of each command.  The store `View` returns is a
`ComponentStore` for both strategies, so the "not writable" error cannot
occur. -/
def applyCommand (w : World α) : Command α → World α × Option Error
  | .createEntity => ({ w with registry := w.registry.create.1 }, none)
  | .destroyEntity e =>
    if e.isZero then (w, some .destroyZeroEntity)
    else if !(w.registry.destroy e).2 then (w, some (.destroyStaleEntity e))
    else ({ w with registry := (w.registry.destroy e).1 }, none)
  | .addComponent e c v =>
    if e.isZero then (w, some .addComponentToZeroEntity)
    else
      match w.view c with
      | .error err => (w, some err)
      | .ok store =>
        ({ w with stores := w.stores.insert c (store.set deepEqual e v).1 },
          (store.set deepEqual e v).2)
  | .removeComponent e c =>
    if e.isZero then (w, some .removeComponentFromZeroEntity)
    else
      match w.view c with
      | .error err => (w, some err)
      | .ok store => ({ w with stores := w.stores.insert c (store.remove e).1 }, none)

/-- `storageProvider.Apply`: `nil` commands are skipped, and the first error
ends the batch, the effects of the commands before it kept. -/
def applyCommands (w : World α) : List (Option (Command α)) → World α × Option Error
  | [] => (w, none)
  | none :: cmds => w.applyCommands cmds
  | some cmd :: cmds =>
    match w.applyCommand deepEqual cmd with
    | (w', none) => w'.applyCommands cmds
    | (w', some err) => (w', some err)

end Go

end World

/-- A call on the world: `RegisterComponent` or `ApplyCommands`. -/
inductive WorldOp (α : Type)
  | registerComponent (t : ComponentType) (strategy : Option StorageStrategy)
  | applyCommands (cmds : List (Option (Command α)))

/-- How many commands a call applies at most. -/
def WorldOp.commands : WorldOp α → ℕ
  | .registerComponent _ _ => 0
  | .applyCommands cmds => cmds.length

namespace World

variable (deepEqual : Option α → Option α → Bool)

/-- One call. -/
def step (w : World α) : WorldOp α → World α × Option Error
  | .registerComponent t strategy => w.registerComponent t strategy
  | .applyCommands cmds => w.applyCommands deepEqual cmds

/-- A run of calls, with what each returned. -/
def run (w : World α) : List (WorldOp α) → World α × List (Option Error)
  | [] => (w, [])
  | op :: ops =>
    (((w.step deepEqual op).1.run ops).1, (w.step deepEqual op).2 :: ((w.step deepEqual op).1.run ops).2)

end World


/-! ### A batch stops at its first error -/

namespace Store

variable (deepEqual : Option α → Option α → Bool)

/-- Both stores refuse only the zero id. -/
theorem set_ok {store : Store α} {e : EntityID} (he : e.isZero = false) (v : Option α) :
    (store.set deepEqual e v).2 = none := by
  cases store <;> simp [set, DenseStore.set, SharedStore.set, he]

end Store

namespace World

variable (deepEqual : Option α → Option α → Bool)

/-- **A command that fails changes nothing**: it returns its error with the
world it was given. -/
theorem applyCommand_error {w : World α} {c : Command α} {e : Error}
    (h : (w.applyCommand deepEqual c).2 = some e) : (w.applyCommand deepEqual c).1 = w := by
  cases c with
  | createEntity => simp [applyCommand] at h
  | destroyEntity x =>
    simp only [applyCommand] at h ⊢
    split_ifs at h ⊢ <;> rfl
  | addComponent x t v =>
    simp only [applyCommand] at h ⊢
    split_ifs at h ⊢ with hz
    · rfl
    · rcases hv : w.view t with err | store <;> simp only [hv] at h ⊢
      rw [Store.set_ok deepEqual (Bool.eq_false_iff.2 hz)] at h; cases h
  | removeComponent x t =>
    simp only [applyCommand] at h ⊢
    split_ifs at h ⊢
    · rfl
    · rcases hv : w.view t with err | store <;> simp only [hv] at h ⊢
      cases h

/-- A batch read as a sequence: the commands one after another from the
front, each applied to the world the one before it left, `nil` entries
skipped. -/
def applyInOrder (w : World α) : List (Option (Command α)) → World α
  | [] => w
  | none :: cmds => applyInOrder w cmds
  | some c :: cmds => applyInOrder (w.applyCommand deepEqual c).1 cmds

/-- Every command of the batch, applied in order, returns no error. -/
def allSucceed (w : World α) : List (Option (Command α)) → Prop
  | [] => True
  | none :: cmds => allSucceed w cmds
  | some c :: cmds =>
    (w.applyCommand deepEqual c).2 = none ∧ allSucceed (w.applyCommand deepEqual c).1 cmds

/-- **`ApplyCommands` stops at the first error.**  On any world, a batch either succeeds
command by command and leaves the world with all of them applied in order, or
stops at the first command that fails: that command returns its error with the
world the commands before it left, and no later command is applied. -/
theorem applyCommands_stops_at_first_error (w : World α) (cmds : List (Option (Command α))) :
    (allSucceed deepEqual w cmds ∧
        w.applyCommands deepEqual cmds = (applyInOrder deepEqual w cmds, none)) ∨
      ∃ pre c post e, cmds = pre ++ some c :: post ∧ allSucceed deepEqual w pre ∧
        (applyInOrder deepEqual w pre).applyCommand deepEqual c =
          (applyInOrder deepEqual w pre, some e) ∧
        w.applyCommands deepEqual cmds = (applyInOrder deepEqual w pre, some e) := by
  induction cmds generalizing w with
  | nil => exact .inl ⟨trivial, rfl⟩
  | cons x cmds ih =>
    cases x with
    | none =>
      rcases ih w with ⟨ha, hr⟩ | ⟨pre, c, post, e, rfl, ha, hc, hr⟩
      · exact .inl ⟨ha, hr⟩
      · exact .inr ⟨none :: pre, c, post, e, rfl, ha, hc, hr⟩
    | some c =>
      rcases hc : w.applyCommand deepEqual c with ⟨w', _ | e⟩
      · rcases ih w' with ⟨ha, hr⟩ | ⟨pre, c', post, e, rfl, ha, hc', hr⟩
        · refine .inl ⟨?_, ?_⟩
          · simp only [allSucceed, hc, true_and]; exact ha
          · simp only [applyCommands, applyInOrder, hc, hr]
        · refine .inr ⟨some c :: pre, c', post, e, rfl, ?_, ?_, ?_⟩
          · simp only [allSucceed, hc, true_and]; exact ha
          · simpa only [applyInOrder, hc] using hc'
          · simp only [applyCommands, applyInOrder, hc, hr]
      · have hw : w' = w := by
          simpa [hc] using applyCommand_error deepEqual (show (w.applyCommand deepEqual c).2 = some e by rw [hc])
        subst hw
        exact .inr ⟨[], c, cmds, e, rfl, trivial, hc, by simp only [applyCommands, applyInOrder, hc]⟩

end World

/-! ### What every store of a reachable world keeps -/

/-- A dense store counts its occupied slots; a shared store keeps
`SharedStore.Inv` and has `k` value ids left before `nextValueID` wraps. -/
def Store.Inv (deepEqual : Option α → Option α → Bool) (k : ℕ) : Store α → Prop
  | .dense s => s.Counted
  | .shared s => s.Inv deepEqual ∧ s.nextValueID.toNat + k < 2 ^ 32

/-- Every store of the world keeps `Store.Inv`. -/
def World.Inv (deepEqual : Option α → Option α → Bool) (k : ℕ) (w : World α) : Prop :=
  ∀ t store, w.stores.lookup t = some store → store.Inv deepEqual k

namespace Store

variable {deepEqual : Option α → Option α → Bool} {k : ℕ}

theorem Inv.mono {store : Store α} {k' : ℕ} (h : store.Inv deepEqual k) (hk : k' ≤ k) :
    store.Inv deepEqual k' := by
  cases store with
  | dense s => exact h
  | shared s => exact ⟨h.1, by have := h.2; omega⟩

theorem inv_newStore (strategy : StorageStrategy) (t : ComponentType) (hk : 1 + k < 2 ^ 32) :
    (strategy.newStore t : Store α).Inv deepEqual k := by
  cases strategy with
  | dense => exact DenseStore.counted_new t
  | shared => exact ⟨SharedStore.Inv.clear (newSharedStore t), by simpa [newSharedStore] using hk⟩

theorem Inv.set (hsymm : ∀ a b, deepEqual a b = deepEqual b a) {store : Store α}
    (h : store.Inv deepEqual (k + 1)) (e : EntityID) (v : Option α) :
    (store.set deepEqual e v).1.Inv deepEqual k := by
  cases store with
  | dense s => exact (DenseStore.apply_refines h (.set e v)).2.2
  | shared s =>
    have hn : s.nextValueID.toNat + 1 < 2 ^ 32 := by have := h.2; omega
    refine ⟨h.1.set hsymm hn e v, ?_⟩
    have := SharedStore.nextValueID_apply_le deepEqual s (.set e v)
    have := h.2
    simp only [SharedStore.apply] at *
    show (s.set deepEqual e v).1.nextValueID.toNat + k < 2 ^ 32
    omega

theorem Inv.remove {store : Store α} (h : store.Inv deepEqual k) (e : EntityID) :
    (store.remove e).1.Inv deepEqual k := by
  cases store with
  | dense s => exact (DenseStore.apply_refines h (.remove e)).2.2
  | shared s =>
    refine ⟨h.1.remove e, ?_⟩
    rcases SharedStore.remove_cases s e with ⟨-, he⟩ | ⟨vid, -, he⟩ <;>
      simpa [he] using h.2

/-- A `Set` leaves `Has` and `Get` of every other id as they were, and of
every id of another index in a dense store. -/
theorem set_frame (hsymm : ∀ a b, deepEqual a b = deepEqual b a) {store : Store α}
    (h : store.Inv deepEqual 1) {e x : EntityID} (hx : x ≠ e)
    (hd : store.isDense = true → x.index ≠ e.index) (v : Option α) :
    (store.set deepEqual e v).1.has x = store.has x ∧
      (store.set deepEqual e v).1.get x = store.get x := by
  cases store with
  | dense s => exact DenseStore.set_frame h (hd rfl) v
  | shared s => exact SharedStore.set_frame hsymm h.1 (by simpa using h.2) hx v

/-- A `Remove` leaves `Has` and `Get` of every other id as they were. -/
theorem remove_frame {store : Store α} (h : store.Inv deepEqual k) {e x : EntityID} (hx : x ≠ e) :
    (store.remove e).1.has x = store.has x ∧ (store.remove e).1.get x = store.get x := by
  cases store with
  | dense s => exact DenseStore.remove_frame h hx
  | shared s => exact SharedStore.remove_frame h.1 hx

end Store

namespace World

variable {deepEqual : Option α → Option α → Bool} {k : ℕ}

theorem Inv.mono {w : World α} {k' : ℕ} (h : w.Inv deepEqual k) (hk : k' ≤ k) :
    w.Inv deepEqual k' := fun t store hl => (h t store hl).mono hk

theorem Inv.insert {w : World α} (h : w.Inv deepEqual k) {c : ComponentType} {store : Store α}
    (hs : store.Inv deepEqual k) : Inv deepEqual k { w with stores := w.stores.insert c store } :=
  fun t store' hl => by
    by_cases ht : t = c
    · subst ht
      simp only [AList.lookup_insert, Option.some_inj] at hl
      exact hl ▸ hs
    · exact h t store' (by simpa [AList.lookup_insert_ne ht] using hl)

theorem Inv.applyCommand (hsymm : ∀ a b, deepEqual a b = deepEqual b a) {w : World α}
    (h : w.Inv deepEqual (k + 1)) (cmd : Command α) :
    (w.applyCommand deepEqual cmd).1.Inv deepEqual k := by
  have h' := h.mono (Nat.le_succ k)
  cases cmd with
  | createEntity => exact h'
  | destroyEntity e =>
    simp only [World.applyCommand]
    split_ifs
    all_goals exact h'
  | addComponent e c v =>
    simp only [World.applyCommand]
    split_ifs
    · exact h'
    · rcases hl : w.stores.lookup c with _ | store <;> simp only [view, hl]
      · exact h'
      · exact h'.insert ((h c store hl).set hsymm e v)
  | removeComponent e c =>
    simp only [World.applyCommand]
    split_ifs
    · exact h'
    · rcases hl : w.stores.lookup c with _ | store <;> simp only [view, hl]
      · exact h'
      · exact h'.insert ((h' c store hl).remove e)

theorem Inv.applyCommands (hsymm : ∀ a b, deepEqual a b = deepEqual b a)
    (cmds : List (Option (Command α))) {w : World α} (h : w.Inv deepEqual (k + cmds.length)) :
    (w.applyCommands deepEqual cmds).1.Inv deepEqual k := by
  induction cmds generalizing w with
  | nil => exact h
  | cons cmd cmds ih =>
    simp only [List.length_cons, ← Nat.add_assoc] at h
    cases cmd with
    | none => exact ih (h.mono (Nat.le_succ _))
    | some cmd =>
      have h1 := h.applyCommand hsymm cmd
      rcases hr : w.applyCommand deepEqual cmd with ⟨w', _ | err⟩ <;>
        simp only [World.applyCommands, hr] <;> rw [hr] at h1
      · exact ih h1
      · exact h1.mono (Nat.le_add_right _ _)

theorem Inv.registerComponent {w : World α} (h : w.Inv deepEqual k) (hk : 1 + k < 2 ^ 32)
    (t : ComponentType) (strategy : Option StorageStrategy) :
    (w.registerComponent t strategy).1.Inv deepEqual k := by
  cases strategy with
  | none => exact h
  | some strategy =>
    simp only [World.registerComponent]
    split_ifs
    · exact h
    · exact h.insert (Store.inv_newStore strategy t hk)

theorem inv_newWorld : (newWorld : World α).Inv deepEqual k := fun t store h => by
  simp [newWorld] at h

/-- Every world a run reaches keeps `World.Inv`: each command uses up one
value id at most. -/
theorem inv_run (hsymm : ∀ a b, deepEqual a b = deepEqual b a) (ops : List (WorldOp α))
    {w : World α} (hk : 1 + k + (ops.map WorldOp.commands).sum < 2 ^ 32)
    (h : w.Inv deepEqual (k + (ops.map WorldOp.commands).sum)) :
    (w.run deepEqual ops).1.Inv deepEqual k := by
  induction ops generalizing w with
  | nil => exact h
  | cons op ops ih =>
    simp only [List.map_cons, List.sum_cons] at hk h
    refine ih (by omega) ?_
    cases op with
    | registerComponent t strategy =>
      exact (h.mono (by simp [WorldOp.commands])).registerComponent (by omega) t strategy
    | applyCommands cmds =>
      exact Inv.applyCommands hsymm cmds (h.mono (by simp [WorldOp.commands]; omega))

/-! ### What a component command leaves alone -/

/-- Whether `c`'s store is a dense one. -/
def isDense (w : World α) (c : ComponentType) : Bool :=
  match w.stores.lookup c with
  | some store => store.isDense
  | none => false

/-- Writing the store of `c` leaves the queries of every other store alone,
and those of `c`'s store as the store's own frame says. -/
theorem queries_insert {w : World α} {c t : ComponentType} {store store' : Store α} {x : EntityID}
    (hl : w.stores.lookup c = some store)
    (hs : store'.has x = store.has x ∧ store'.get x = store.get x) :
    World.hasComponent { w with stores := w.stores.insert c store' } t x = w.hasComponent t x ∧
      World.getComponent { w with stores := w.stores.insert c store' } t x =
        w.getComponent t x := by
  by_cases ht : t = c
  · subst ht
    simp [hasComponent, getComponent, view, hl, AList.lookup_insert, hs]
  · simp [hasComponent, getComponent, view, AList.lookup_insert_ne ht]

theorem removeComponent_frame {w : World α} (h : w.Inv deepEqual k) {e x : EntityID} (hx : x ≠ e)
    (c t : ComponentType) :
    (w.applyCommand deepEqual (.removeComponent e c)).1.hasComponent t x = w.hasComponent t x ∧
      (w.applyCommand deepEqual (.removeComponent e c)).1.getComponent t x =
        w.getComponent t x := by
  simp only [World.applyCommand]
  split_ifs
  · simp
  · rcases hl : w.stores.lookup c with _ | store <;> simp only [view, hl]
    · simp
    · exact queries_insert hl (Store.remove_frame (h c store hl) hx)

theorem addComponent_frame (hsymm : ∀ a b, deepEqual a b = deepEqual b a) {w : World α}
    (h : w.Inv deepEqual 1) {e x : EntityID} (hx : x ≠ e) (c t : ComponentType) (v : Option α)
    (hd : t = c → w.isDense c = true → x.index ≠ e.index) :
    (w.applyCommand deepEqual (.addComponent e c v)).1.hasComponent t x = w.hasComponent t x ∧
      (w.applyCommand deepEqual (.addComponent e c v)).1.getComponent t x =
        w.getComponent t x := by
  simp only [World.applyCommand]
  split_ifs
  · simp
  · rcases hl : w.stores.lookup c with _ | store <;> simp only [view, hl]
    · simp
    · by_cases ht : t = c
      · exact queries_insert hl (Store.set_frame hsymm (h c store hl) hx
          (fun hds => hd ht (by simpa [isDense, hl] using hds)) v)
      · simp [hasComponent, getComponent, view, AList.lookup_insert_ne ht]

end World

/-- **A component command of an id that is not alive leaves every live id's
components alone, but for the slot a dense store gives its index.**  For a
symmetric `DeepEqual`, any world reached from `NewWorld` by registrations and
command batches of fewer than `2 ^ 32 - 2` commands in all, any `e` that is not
alive and any `x` that is: applying `NewRemoveComponentCommand(e, c)` leaves
`Has(x)` and `Get(x)` of every component store as they were, and so does
`NewAddComponentCommand(e, c, v)`, except in `c`'s store when it is dense and
`x` has `e`'s index. -/
theorem component_command_frame (deepEqual : Option α → Option α → Bool)
    (hsymm : ∀ a b, deepEqual a b = deepEqual b a) (ops : List (WorldOp α))
    (hops : (ops.map WorldOp.commands).sum + 2 < 2 ^ 32) (e x : EntityID) (c t : ComponentType)
    (v : Option α) :
    let w := ((newWorld : World α).run deepEqual ops).1
    w.registry.isAlive e = false → w.registry.isAlive x = true →
      ((w.applyCommand deepEqual (.removeComponent e c)).1.hasComponent t x = w.hasComponent t x ∧
        (w.applyCommand deepEqual (.removeComponent e c)).1.getComponent t x =
          w.getComponent t x) ∧
      ((t = c → w.isDense c = true → x.index ≠ e.index) →
        (w.applyCommand deepEqual (.addComponent e c v)).1.hasComponent t x =
            w.hasComponent t x ∧
          (w.applyCommand deepEqual (.addComponent e c v)).1.getComponent t x =
            w.getComponent t x) := by
  intro w he hx
  have hne : x ≠ e := by
    rintro rfl
    rw [he] at hx
    exact Bool.false_ne_true hx
  have hi : w.Inv deepEqual 1 := World.inv_run hsymm ops (by omega) World.inv_newWorld
  exact ⟨World.removeComponent_frame hi hne c t, World.addComponent_frame hsymm hi hne c t v⟩

theorem component_command_frame_on_dense :
    (∀ a b : Option ℕ, (a == b) = (b == a)) ∧
      (([.registerComponent "c" (some .dense), .applyCommands [some .createEntity,
        some .createEntity, some (.addComponent ⟨1, 1⟩ "c" (some 5)),
        some (.destroyEntity ⟨0, 1⟩)]] : List (WorldOp ℕ)).map WorldOp.commands).sum + 2 <
          2 ^ 32 ∧
      let w := ((newWorld : World ℕ).run (· == ·) [.registerComponent "c" (some .dense),
        .applyCommands [some .createEntity, some .createEntity,
          some (.addComponent ⟨1, 1⟩ "c" (some 5)), some (.destroyEntity ⟨0, 1⟩)]]).1
      w.registry.isAlive ⟨0, 1⟩ = false ∧ w.registry.isAlive ⟨1, 1⟩ = true ∧
        w.getComponent "c" ⟨1, 1⟩ = (some 5, true) ∧
        (("c" : ComponentType) = "c" → w.isDense "c" = true →
          (⟨1, 1⟩ : EntityID).index ≠ (⟨0, 1⟩ : EntityID).index) ∧
        ((w.applyCommand (· == ·) (.removeComponent ⟨0, 1⟩ "c")).1.hasComponent "c" ⟨1, 1⟩ =
            w.hasComponent "c" ⟨1, 1⟩ ∧
          (w.applyCommand (· == ·) (.removeComponent ⟨0, 1⟩ "c")).1.getComponent "c" ⟨1, 1⟩ =
            w.getComponent "c" ⟨1, 1⟩) ∧
        ((w.applyCommand (· == ·) (.addComponent ⟨0, 1⟩ "c" (some 7))).1.hasComponent "c"
            ⟨1, 1⟩ = w.hasComponent "c" ⟨1, 1⟩ ∧
          (w.applyCommand (· == ·) (.addComponent ⟨0, 1⟩ "c" (some 7))).1.getComponent "c"
            ⟨1, 1⟩ = w.getComponent "c" ⟨1, 1⟩) :=
  ⟨fun _ _ => Bool.beq_comm, by decide, by decide, by decide, by decide, by decide,
    (component_command_frame _ (fun _ _ => Bool.beq_comm) _ (by decide) ⟨0, 1⟩ ⟨1, 1⟩ "c" "c"
      (some 7) (by decide) (by decide)).1,
    (component_command_frame _ (fun _ _ => Bool.beq_comm) _ (by decide) ⟨0, 1⟩ ⟨1, 1⟩ "c" "c"
      (some 7) (by decide) (by decide)).2 (by decide)⟩

/-- **A stale id's component replaces a live id's in a dense store.**  Create
`(0,1)`, destroy it, create `(0,3)` on the recycled index and give it
component `1`; adding component `2` to the stale `(0,1)` overwrites slot `0`
with generation `1`, and `(0,3)` no longer has the component. -/
theorem add_stale_component_clobbers :
    let w := ((newWorld : World ℕ).run (· == ·) [.registerComponent "c" (some .dense),
      .applyCommands [some .createEntity, some (.destroyEntity ⟨0, 1⟩), some .createEntity,
        some (.addComponent ⟨0, 3⟩ "c" (some 1))]]).1
    w.registry.isAlive ⟨0, 1⟩ = false ∧ w.registry.isAlive ⟨0, 3⟩ = true ∧
      w.getComponent "c" ⟨0, 3⟩ = (some 1, true) ∧
      (w.applyCommand (· == ·) (.addComponent ⟨0, 1⟩ "c" (some 2))).1.getComponent "c" ⟨0, 3⟩ =
        (none, false) := by
  decide

end Ecs

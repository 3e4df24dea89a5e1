/-
# Entity ids, component keys and the error values

`entity.go` (`EntityID`, `Index`, `Generation`, `IsZero`, `String`,
`EntityIDFromParts`), `api.go` (`ComponentType`, `WorkGroupID`) and every
`error` the modelled code returns: the sentinels of `errors.go` and the
`fmt.Errorf` texts of `commands.go`, the two stores and the scheduler.

Go's `uint32` is `UInt32` and the scheduler's `uint64` tick index is `UInt64`,
whose `+` and `-` wrap as Go's do; the lemmas below move between them and `Nat`
so that `omega` closes the arithmetic.  An `error`
is `Option Error` (`none` is `nil`); `Error.text` is the string `Error()`
returns.
-/

import Mathlib

namespace Ecs

/-! ### `uint32` -/

theorem UInt32.toNat_add' (a b : UInt32) : (a + b).toNat = (a.toNat + b.toNat) % 2 ^ 32 := rfl

@[simp] theorem UInt32.toNat_ofNat' (n : ℕ) : (UInt32.ofNat n).toNat = n % 2 ^ 32 :=
  BitVec.toNat_ofNat n 32

@[simp] theorem UInt32.toNat_one' : (1 : UInt32).toNat = 1 := rfl

theorem UInt32.toNat_lt' (a : UInt32) : a.toNat < 2 ^ 32 := a.toBitVec.isLt

theorem UInt32.eq_iff_toNat_eq (a b : UInt32) : a = b ↔ a.toNat = b.toNat :=
  ⟨congrArg _, UInt32.toNat.inj⟩

theorem UInt32.le_iff_toNat_le (a b : UInt32) : a ≤ b ↔ a.toNat ≤ b.toNat := Iff.rfl

/-- A `uint32` increment that does not wrap. -/
theorem UInt32.toNat_add_one {a : UInt32} (h : a.toNat + 1 < 2 ^ 32) :
    (a + 1).toNat = a.toNat + 1 := by
  rw [UInt32.toNat_add', UInt32.toNat_one', Nat.mod_eq_of_lt h]

theorem UInt32.ofNat_add_one (n : ℕ) : UInt32.ofNat n + 1 = UInt32.ofNat (n + 1) := by
  rw [UInt32.eq_iff_toNat_eq, UInt32.toNat_add', UInt32.toNat_ofNat', UInt32.toNat_ofNat',
    UInt32.toNat_one', Nat.mod_add_mod]

/-! ### `uint64` -/

theorem UInt64.toNat_add' (a b : UInt64) : (a + b).toNat = (a.toNat + b.toNat) % 2 ^ 64 := rfl

@[simp] theorem UInt64.toNat_ofNat' (n : ℕ) : (UInt64.ofNat n).toNat = n % 2 ^ 64 :=
  BitVec.toNat_ofNat n 64

theorem UInt64.eq_iff_toNat_eq (a b : UInt64) : a = b ↔ a.toNat = b.toNat :=
  ⟨congrArg _, UInt64.toNat.inj⟩

theorem UInt64.ofNat_add (m n : ℕ) : UInt64.ofNat (m + n) = UInt64.ofNat m + UInt64.ofNat n := by
  rw [UInt64.eq_iff_toNat_eq, UInt64.toNat_add', UInt64.toNat_ofNat', UInt64.toNat_ofNat',
    UInt64.toNat_ofNat', Nat.add_mod]

/-- Go's `uint64(x)` of a `uint32`. -/
@[simp] theorem UInt32.toNat_toUInt64 (a : UInt32) : a.toUInt64.toNat = a.toNat := rfl

/-! ### `EntityID` -/

/-- Go's `EntityID`: a slot index and the generation it was issued with. -/
structure EntityID where
  index : UInt32
  generation : UInt32
deriving DecidableEq, Repr

/-- Go's `EntityIDFromParts`: any pair of parts, issued or not. -/
def entityIDFromParts (index generation : UInt32) : EntityID := ⟨index, generation⟩

/-- Go's `EntityID.IsZero`. -/
def EntityID.isZero (id : EntityID) : Bool := id.index == 0 && id.generation == 0

@[simp] theorem EntityID.isZero_eq_true (id : EntityID) :
    id.isZero = true ↔ id.index = 0 ∧ id.generation = 0 := by
  simp [EntityID.isZero]

/-- Go's `EntityID.String`: `EntityID(index:generation)`; the zero id prints as
`EntityID(0:0)` through its own branch, which renders the same text. -/
def EntityID.text (id : EntityID) : String :=
  if id.isZero then "EntityID(0:0)"
  else "EntityID(" ++ toString id.index ++ ":" ++ toString id.generation ++ ")"

/-- Go's `ComponentType`, the key of one store. -/
abbrev ComponentType := String

/-- Go's `WorkGroupID`. -/
abbrev WorkGroupID := String

/-! ### Errors -/

/-- Every error value of the modelled code.  The `%w`-wrapping errors of
`validateSystemsAccess` and `checkCrossGroupConflicts` keep the operands their
format strings print. -/
inductive Error where
  | componentAlreadyRegistered
  | componentNotRegistered
  | nilStorageStrategy
  | nilComponentStore
  | workerPoolClosed
  | asyncSystemNotAllowed (name : String)
  | asyncWritesNotSupported (name : String) (writes : List ComponentType)
  | asyncResourceWritesNotSupported (name resource : String)
  | duplicateWriteInSystem (name : String) (comp : ComponentType)
  | duplicateWrite (owner name : String) (comp : ComponentType)
  | duplicateResourceWriteInSystem (name resource : String)
  | duplicateResourceWrite (owner name resource : String)
  | componentOwned (owner : WorkGroupID) (comp : ComponentType)
  | resourceOwned (owner : WorkGroupID) (resource : String)
  | resourceRead (reader : WorkGroupID) (resource : String)
  | resourceWritten (owner : WorkGroupID) (resource : String)
  | emptyWorkGroupID
  | workGroupAlreadyRegistered (id : WorkGroupID)
  | destroyZeroEntity
  | destroyStaleEntity (id : EntityID)
  | addComponentToZeroEntity
  | removeComponentFromZeroEntity
  | denseSetZero
  | sharedSetZero
  | systemFailed (name : String) (cause : Error)
  /-- The error `context.Canceled`, from `ctx.Err()`. -/
  | canceled
  /-- The error `context.DeadlineExceeded`, from `ctx.Err()`. -/
  | deadlineExceeded
  /-- An error a system returned in its `SystemResult`. -/
  | system (text : String)
deriving DecidableEq, Repr

/-- Go's `%v` of a string slice. -/
def goList (l : List String) : String := "[" ++ " ".intercalate l ++ "]"

/-- The text `Error()` returns: the sentinel texts of `errors.go` and the `fmt.Errorf` formats. -/
def Error.text : Error → String
  | .componentAlreadyRegistered => "ecs: component already registered"
  | .componentNotRegistered => "ecs: component not registered"
  | .nilStorageStrategy => "ecs: nil storage strategy"
  | .nilComponentStore => "ecs: strategy returned nil store"
  | .workerPoolClosed => "ecs: worker pool closed"
  | .asyncSystemNotAllowed n => "ecs: system does not allow async execution: " ++ n
  | .asyncWritesNotSupported n w =>
    "ecs: async work group cannot perform component writes: " ++ n ++ " writes components " ++
      goList w
  | .asyncResourceWritesNotSupported n r =>
    "ecs: async work group cannot perform resource writes: " ++ n ++ " writes resource " ++ r
  | .duplicateWriteInSystem n c =>
    "ecs: duplicate write access to component in work group: " ++ n ++ " writes component " ++
      c ++ " multiple times"
  | .duplicateWrite o n c =>
    "ecs: duplicate write access to component in work group: " ++ o ++ " and " ++ n ++
      " both write component " ++ c
  | .duplicateResourceWriteInSystem n r =>
    "ecs: duplicate write access to resource in work group: " ++ n ++ " writes resource " ++
      r ++ " multiple times"
  | .duplicateResourceWrite o n r =>
    "ecs: duplicate write access to resource in work group: " ++ o ++ " and " ++ n ++
      " both write resource " ++ r
  | .componentOwned o c =>
    "ecs: duplicate write access to component in work group: " ++ o ++
      " already owns component " ++ c
  | .resourceOwned o r =>
    "ecs: duplicate write access to resource in work group: " ++ o ++
      " already owns resource " ++ r
  | .resourceRead o r =>
    "ecs: duplicate write access to resource in work group: " ++ o ++
      " already reads resource " ++ r
  | .resourceWritten o r =>
    "ecs: duplicate write access to resource in work group: " ++ o ++
      " already writes resource " ++ r
  | .emptyWorkGroupID => "ecs: work group requires non-empty ID"
  | .workGroupAlreadyRegistered id => "ecs: work group " ++ id ++ " already registered"
  | .destroyZeroEntity => "ecs: destroy zero entity"
  | .destroyStaleEntity id => "ecs: destroy stale entity " ++ id.text
  | .addComponentToZeroEntity => "ecs: add component to zero entity"
  | .removeComponentFromZeroEntity => "ecs: remove component from zero entity"
  | .denseSetZero => "dense: cannot set zero entity"
  | .sharedSetZero => "shared: cannot set zero entity"
  | .systemFailed n e => "ecs: system " ++ n ++ " failed: " ++ e.text
  | .canceled => "context canceled"
  | .deadlineExceeded => "context deadline exceeded"
  | .system t => t

/-! ### The write calls of a `ComponentStore` -/

/-- A call of `Set`, `Remove` or `Clear` on a component store; a value is Go's
`any`, `none` being `nil`. -/
inductive StoreOp (α : Type) where
  | set (id : EntityID) (value : Option α)
  | remove (id : EntityID)
  | clear
deriving DecidableEq, Repr

/-- What `Set` (its `error`), `Remove` (its `bool`) or `Clear` returned. -/
inductive StoreReply where
  | set (err : Option Error)
  | remove (removed : Bool)
  | clear
deriving DecidableEq, Repr

end Ecs

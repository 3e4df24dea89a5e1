/-
# The dense store, and the finite map it implements

`storage/dense.go`: `denseStore` with `Len`, `Has`, `Get`, `Iterate`, `Set`,
`Remove`, `Clear` and `ensureCapacity`; `denseStrategy.NewStore`.

A slot vector indexed by the entity index, each slot holding a generation, a
value and an `occupied` flag.  What it is for is a finite map `M` from index
to `(generation, value)` (`IndexMap`): `Set id v` writes `M[id.Index()]`,
`Remove id` deletes the entry when its generation is `id`'s, `Clear` empties
`M`, and the queries read `M`.  `toIndexMap` reads `M` off the slots, and
`dense_refines_indexMap` says that every run of writes moves the slots and `M`
in step, with the same replies, and that every query of the store is the query
of `M`.

`Iterate`'s visitor is a Go closure; its captured state is made explicit as a
value of type `σ` that `fn` returns together with its `bool`.
-/

import Ecs.Basic

namespace Ecs
namespace Storage

variable {α σ : Type}

/-- Go's `denseSlot`. -/
structure DenseSlot (α : Type) where
  generation : UInt32
  value : Option α
  occupied : Bool
deriving DecidableEq, Repr

/-- The zero `denseSlot{}`. -/
def DenseSlot.empty : DenseSlot α := ⟨0, none, false⟩

/-- Go's `denseStore`. -/
structure DenseStore (α : Type) where
  typ : ComponentType
  slots : List (DenseSlot α)
  count : ℤ
deriving DecidableEq, Repr

/-- Go's `denseStrategy.NewStore`. -/
def newDenseStore (t : ComponentType) : DenseStore α := ⟨t, [], 0⟩

namespace DenseStore

/-- Go's `Len`. -/
def len (s : DenseStore α) : ℤ := s.count

/-- Go's `Has`: the slot exists, is occupied, and has the id's generation. -/
def has (s : DenseStore α) (id : EntityID) : Bool :=
  match s.slots[id.index.toNat]? with
  | none => false
  | some slot => slot.occupied && slot.generation == id.generation

/-- Go's `Get`: `(nil, false)` unless `Has`. -/
def get (s : DenseStore α) (id : EntityID) : Option α × Bool :=
  if s.has id then ((s.slots.getD id.index.toNat .empty).value, true) else (none, false)

/-- The loop of Go's `Iterate` from slot `idx` on. -/
def iterateFrom (fn : σ → EntityID → Option α → σ × Bool) :
    ℕ → List (DenseSlot α) → σ → σ
  | _, [], acc => acc
  | idx, slot :: rest, acc =>
    if !slot.occupied then iterateFrom fn (idx + 1) rest acc
    else
      let r := fn acc (entityIDFromParts (UInt32.ofNat idx) slot.generation) slot.value
      if r.2 then iterateFrom fn (idx + 1) rest r.1 else r.1

/-- Go's `Iterate`: every occupied slot in index order, as the id
`EntityIDFromParts(uint32(idx), slot.generation)`, until `fn` returns `false`. -/
def iterate (s : DenseStore α) (fn : σ → EntityID → Option α → σ × Bool) (init : σ) : σ :=
  iterateFrom fn 0 s.slots init

/-- Go's `ensureCapacity`: append zero slots up to `size`. -/
def ensureCapacity (s : DenseStore α) (size : ℕ) : DenseStore α :=
  if size ≤ s.slots.length then s
  else { s with slots := s.slots ++ List.replicate (size - s.slots.length) .empty }

/-- Go's `Set`: refuses the zero id; otherwise grows the slots to the index,
counts the slot if it was free, and overwrites it. -/
def set (s : DenseStore α) (id : EntityID) (value : Option α) : DenseStore α × Option Error :=
  if id.isZero then (s, some .denseSetZero)
  else
    let s := s.ensureCapacity (id.index.toNat + 1)
    let slot := s.slots.getD id.index.toNat .empty
    ({ s with slots := s.slots.set id.index.toNat ⟨id.generation, value, true⟩,
              count := if !slot.occupied then s.count + 1 else s.count }, none)

/-- Go's `Remove`: when `Has`, frees the slot (keeping its generation) and
releases the value. -/
def remove (s : DenseStore α) (id : EntityID) : DenseStore α × Bool :=
  if !s.has id then (s, false)
  else
    let slot := s.slots.getD id.index.toNat .empty
    ({ s with slots := s.slots.set id.index.toNat { slot with occupied := false, value := none },
              count := s.count - 1 }, true)

/-- Go's `Clear`: every slot back to `denseSlot{}`. -/
def clear (s : DenseStore α) : DenseStore α :=
  { s with slots := s.slots.map fun _ => .empty, count := 0 }

/-- One write call. -/
def apply (s : DenseStore α) : StoreOp α → DenseStore α × StoreReply
  | .set id v => ((s.set id v).1, .set (s.set id v).2)
  | .remove id => ((s.remove id).1, .remove (s.remove id).2)
  | .clear => (s.clear, .clear)

/-- A run of write calls, with the replies in order. -/
def run (s : DenseStore α) : List (StoreOp α) → DenseStore α × List StoreReply
  | [] => (s, [])
  | op :: ops => (((s.apply op).1.run ops).1, (s.apply op).2 :: ((s.apply op).1.run ops).2)

end DenseStore

/-! ### The finite map -/

/-- A finite map from entity index to `(generation, value)`, as its entries
in increasing index order. -/
abbrev IndexMap (α : Type) := List (ℕ × (UInt32 × Option α))

namespace IndexMap

/-- `M[i] := e`. -/
def insert : IndexMap α → ℕ → UInt32 × Option α → IndexMap α
  | [], i, e => [(i, e)]
  | (j, e') :: M, i, e =>
    if i < j then (i, e) :: (j, e') :: M
    else if i = j then (i, e) :: M
    else (j, e') :: insert M i e

/-- Delete `M[i]`. -/
def erase (M : IndexMap α) (i : ℕ) : IndexMap α := M.filter (·.1 ≠ i)

/-- Whether `M[id.Index()]` has generation `id.Generation()`. -/
def has (M : IndexMap α) (id : EntityID) : Bool :=
  (M.lookup id.index.toNat).map Prod.fst == some id.generation

/-- The value of `M[id.Index()]` when its generation is `id.Generation()`. -/
def get (M : IndexMap α) (id : EntityID) : Option α × Bool :=
  match M.lookup id.index.toNat with
  | some (g, v) => if g = id.generation then (v, true) else (none, false)
  | none => (none, false)

/-- What the store is for: `Set` of a non-zero id writes the entry of its
index, `Remove` deletes the entry of its index when the generations agree,
`Clear` empties the map. -/
def apply (M : IndexMap α) : StoreOp α → IndexMap α × StoreReply
  | .set id v =>
    if id.isZero then (M, .set (some .denseSetZero))
    else (M.insert id.index.toNat (id.generation, v), .set none)
  | .remove id =>
    if M.has id then (M.erase id.index.toNat, .remove true)
    else (M, .remove false)
  | .clear => ([], .clear)

/-- A run of write calls on the map. -/
def run (M : IndexMap α) : List (StoreOp α) → IndexMap α × List StoreReply
  | [] => (M, [])
  | op :: ops => (((M.apply op).1.run ops).1, (M.apply op).2 :: ((M.apply op).1.run ops).2)

/-- Visiting the entries in order, as `EntityIDFromParts(uint32(i), g)`,
until `fn` says stop. -/
def visit (fn : σ → EntityID → Option α → σ × Bool) : IndexMap α → σ → σ
  | [], acc => acc
  | (i, (g, v)) :: M, acc =>
    let r := fn acc (entityIDFromParts (UInt32.ofNat i) g) v
    if r.2 then visit fn M r.1 else r.1

theorem insert_of_lt {M : IndexMap α} {i : ℕ} (h : ∀ e ∈ M, i < e.1) (e : UInt32 × Option α) :
    M.insert i e = (i, e) :: M := by
  cases M with
  | nil => rfl
  | cons x M => simp [insert, h x (List.mem_cons_self _ _)]

theorem erase_of_ne {M : IndexMap α} {i : ℕ} (h : ∀ e ∈ M, i ≠ e.1) : M.erase i = M :=
  List.filter_eq_self.2 fun e he => by simpa using (h e he).symm

theorem insert_cons_self (M : IndexMap α) (i : ℕ) (e e' : UInt32 × Option α) :
    insert ((i, e) :: M) i e' = (i, e') :: M := by
  simp [insert]

theorem insert_cons_of_lt {M : IndexMap α} {i j : ℕ} (h : j < i) (e e' : UInt32 × Option α) :
    insert ((j, e) :: M) i e' = (j, e) :: M.insert i e' := by
  simp [insert, Nat.not_lt_of_gt h, Nat.ne_of_gt h]

theorem erase_cons_of_ne {M : IndexMap α} {i j : ℕ} (h : j ≠ i) (e : UInt32 × Option α) :
    erase ((j, e) :: M) i = (j, e) :: M.erase i := by
  simp [erase, List.filter_cons, h]

theorem erase_cons_self {M : IndexMap α} {i : ℕ} (h : ∀ e ∈ M, i ≠ e.1) (e : UInt32 × Option α) :
    erase ((i, e) :: M) i = M := by
  simp only [erase, List.filter_cons, ne_eq, not_true_eq_false, decide_False, if_false]
  exact erase_of_ne h

theorem lookup_insert_ne (M : IndexMap α) {i j : ℕ} (h : j ≠ i) (e : UInt32 × Option α) :
    (M.insert i e).lookup j = M.lookup j := by
  induction M with
  | nil => simp [insert, List.lookup_cons, beq_false_of_ne h]
  | cons p M ih =>
    obtain ⟨k, e'⟩ := p
    unfold insert
    split_ifs with h1 h2
    · simp [List.lookup_cons, beq_false_of_ne h]
    · subst h2
      simp [List.lookup_cons, beq_false_of_ne h]
    · by_cases hk : j = k
      · subst hk
        simp [List.lookup_cons]
      · simp [List.lookup_cons, beq_false_of_ne hk, ih]

theorem lookup_erase (M : IndexMap α) (i j : ℕ) :
    (M.erase i).lookup j = if j = i then none else M.lookup j := by
  induction M with
  | nil => simp [erase]
  | cons p M ih =>
    obtain ⟨k, e'⟩ := p
    have hM : erase ((k, e') :: M) i = if k = i then erase M i else (k, e') :: erase M i := by
      by_cases hk : k = i <;> simp [erase, List.filter_cons, hk]
    by_cases hj : j = k
    · subst hj
      by_cases hk : j = i
      · subst hk
        rw [hM, if_pos rfl, ih, if_pos rfl, if_pos rfl]
      · rw [hM, if_neg hk, if_neg hk]
        simp [List.lookup_cons]
    · have hc : ((k, e') :: M).lookup j = M.lookup j := by
        simp [List.lookup_cons, beq_false_of_ne hj]
      rw [hM, hc]
      by_cases hki : k = i
      · rw [if_pos hki]
        exact ih
      · rw [if_neg hki, List.lookup_cons, beq_false_of_ne hj]
        exact ih

/-- `Has` and `Get` of an id read only the entry of its index. -/
theorem has_get_congr {M M' : IndexMap α} {x : EntityID}
    (h : M'.lookup x.index.toNat = M.lookup x.index.toNat) : M'.has x = M.has x ∧ M'.get x = M.get x := by
  simp [has, get, h]

end IndexMap

/-! ### The map the slots store -/

/-- The entries stored by the slots `l`, the first being slot `k`: the occupied
ones, in order. -/
def absFrom : ℕ → List (DenseSlot α) → IndexMap α
  | _, [] => []
  | k, slot :: rest =>
    if slot.occupied then (k, (slot.generation, slot.value)) :: absFrom (k + 1) rest
    else absFrom (k + 1) rest

/-- The finite map a dense store implements. -/
def DenseStore.toIndexMap (s : DenseStore α) : IndexMap α := absFrom 0 s.slots

theorem le_of_mem_absFrom {k : ℕ} {l : List (DenseSlot α)} {e : ℕ × (UInt32 × Option α)}
    (h : e ∈ absFrom k l) : k ≤ e.1 := by
  induction l generalizing k with
  | nil => simp [absFrom] at h
  | cons slot rest ih =>
    simp only [absFrom] at h
    split_ifs at h
    · rcases List.mem_cons.1 h with rfl | h
      · exact le_rfl
      · exact Nat.le_of_succ_le (ih h)
    · exact Nat.le_of_succ_le (ih h)

/-- The entries come in strictly increasing index order. -/
theorem sorted_absFrom (k : ℕ) (l : List (DenseSlot α)) :
    ((absFrom k l).map Prod.fst).Sorted (· < ·) := by
  induction l generalizing k with
  | nil => simp [absFrom]
  | cons slot rest ih =>
    simp only [absFrom]
    split_ifs
    · refine List.sorted_cons.2 ⟨fun b hb => ?_, ih (k + 1)⟩
      obtain ⟨e, he, rfl⟩ := List.mem_map.1 hb
      exact le_of_mem_absFrom he
    · exact ih (k + 1)

theorem length_absFrom (k : ℕ) (l : List (DenseSlot α)) :
    (absFrom k l).length = l.countP (·.occupied) := by
  induction l generalizing k with
  | nil => rfl
  | cons slot rest ih => by_cases h : slot.occupied <;> simp [absFrom, h, ih]

theorem absFrom_replicate_empty (k n : ℕ) :
    absFrom k (List.replicate n (DenseSlot.empty : DenseSlot α)) = [] := by
  induction n generalizing k with
  | zero => rfl
  | succ n ih => rw [List.replicate_succ, absFrom]; exact ih (k + 1)

theorem absFrom_map_empty' (l : List (DenseSlot α)) :
    absFrom 0 (l.map fun _ => (DenseSlot.empty : DenseSlot α)) = [] := by
  rw [List.map_const']; exact absFrom_replicate_empty 0 _

theorem absFrom_append_empty (k n : ℕ) (l : List (DenseSlot α)) :
    absFrom k (l ++ List.replicate n .empty) = absFrom k l := by
  induction l generalizing k with
  | nil => exact absFrom_replicate_empty k n
  | cons slot rest ih => simp [absFrom, ih]

/-- Writing slot `i` writes or deletes entry `k + i`. -/
theorem absFrom_set {k i : ℕ} {l : List (DenseSlot α)} (h : i < l.length) (slot : DenseSlot α) :
    absFrom k (l.set i slot) = if slot.occupied then
      (absFrom k l).insert (k + i) (slot.generation, slot.value)
    else (absFrom k l).erase (k + i) := by
  induction l generalizing k i with
  | nil => simp at h
  | cons x rest ih =>
    have hgt : ∀ e ∈ absFrom (k + 1) rest, k < e.1 := fun e he => le_of_mem_absFrom he
    cases i with
    | zero =>
      have hne : ∀ e ∈ absFrom (k + 1) rest, k ≠ e.1 := fun e he => Nat.ne_of_lt (hgt e he)
      by_cases hx : x.occupied <;> by_cases hs : slot.occupied <;>
        simp only [List.set_cons_zero, absFrom, hx, hs, if_true, if_false, Bool.false_eq_true,
          Nat.add_zero, IndexMap.insert_cons_self, IndexMap.erase_cons_self hne,
          IndexMap.insert_of_lt hgt, IndexMap.erase_of_ne hne]
    | succ i =>
      have ih' := ih (k := k + 1) (i := i) (by simpa using h)
      rw [show k + 1 + i = k + (i + 1) by omega] at ih'
      by_cases hx : x.occupied <;> by_cases hs : slot.occupied <;>
        simp only [List.set_cons_succ, absFrom, hx, hs, if_true, if_false, Bool.false_eq_true, ih',
          IndexMap.insert_cons_of_lt (show k < k + (i + 1) by omega),
          IndexMap.erase_cons_of_ne (show k ≠ k + (i + 1) by omega)]

theorem lookup_absFrom (k i : ℕ) (l : List (DenseSlot α)) :
    (absFrom k l).lookup (k + i) =
      (l[i]?).bind fun slot => if slot.occupied then some (slot.generation, slot.value) else none := by
  induction l generalizing k i with
  | nil => simp [absFrom]
  | cons slot rest ih =>
    have hne : ∀ e ∈ absFrom (k + 1) rest, e.1 ≠ k := fun e he => by
      have := le_of_mem_absFrom he; omega
    cases i with
    | zero =>
      by_cases hs : slot.occupied
      · simp [absFrom, hs, List.lookup_cons]
      · simp only [absFrom, hs, Bool.false_eq_true, if_false, Nat.add_zero, List.getElem?_cons_zero,
          Option.some_bind, if_false]
        exact List.lookup_eq_none_iff.2 fun p hp => by simpa using (hne p hp).symm
    | succ i =>
      have := ih (k + 1) i
      rw [show k + 1 + i = k + (i + 1) by omega] at this
      have hk : (k + (i + 1) == k) = false := by simp
      by_cases hs : slot.occupied <;> simp [absFrom, hs, List.lookup_cons, this, hk]

theorem iterateFrom_eq_visit (fn : σ → EntityID → Option α → σ × Bool) (k : ℕ)
    (l : List (DenseSlot α)) (acc : σ) :
    DenseStore.iterateFrom fn k l acc = (absFrom k l).visit fn acc := by
  induction l generalizing k acc with
  | nil => rfl
  | cons slot rest ih =>
    by_cases hs : slot.occupied <;> simp [DenseStore.iterateFrom, absFrom, hs, IndexMap.visit, ih]

theorem IndexMap.visit_of_continue (fn : σ → EntityID → Option α → σ × Bool)
    (hfn : ∀ acc id v, (fn acc id v).2 = true) (M : IndexMap α) (acc : σ) :
    M.visit fn acc = M.foldl (fun acc e =>
      (fn acc (entityIDFromParts (UInt32.ofNat e.1) e.2.1) e.2.2).1) acc := by
  induction M generalizing acc with
  | nil => rfl
  | cons e M ih => simp [IndexMap.visit, hfn, ih]

/-! ### The store moves with the map -/

namespace DenseStore

/-- Go's `count` is the number of occupied slots. -/
def Counted (s : DenseStore α) : Prop := s.count = s.toIndexMap.length

theorem counted_new (t : ComponentType) : (newDenseStore t : DenseStore α).Counted := rfl

theorem lookup_toIndexMap (s : DenseStore α) (i : ℕ) :
    s.toIndexMap.lookup i = (s.slots[i]?).bind fun slot =>
      if slot.occupied then some (slot.generation, slot.value) else none := by
  simpa using lookup_absFrom 0 i s.slots

theorem has_eq (s : DenseStore α) (id : EntityID) : s.has id = s.toIndexMap.has id := by
  unfold has IndexMap.has
  rw [lookup_toIndexMap]
  cases s.slots[id.index.toNat]? with
  | none => rfl
  | some slot => by_cases h : slot.occupied <;> simp [h]

theorem get_eq (s : DenseStore α) (id : EntityID) : s.get id = s.toIndexMap.get id := by
  unfold get IndexMap.get
  rw [has_eq, IndexMap.has, lookup_toIndexMap]
  cases h : s.slots[id.index.toNat]? with
  | none => rfl
  | some slot =>
    by_cases ho : slot.occupied <;> by_cases hg' : slot.generation = id.generation <;>
      simp [ho, hg', h]

theorem iterate_eq (s : DenseStore α) (fn : σ → EntityID → Option α → σ × Bool) (init : σ) :
    s.iterate fn init = s.toIndexMap.visit fn init :=
  iterateFrom_eq_visit fn 0 s.slots init

theorem len_eq {s : DenseStore α} (h : s.Counted) : s.len = s.toIndexMap.length := h

theorem toIndexMap_ensureCapacity (s : DenseStore α) (n : ℕ) :
    (s.ensureCapacity n).toIndexMap = s.toIndexMap := by
  unfold ensureCapacity toIndexMap
  split_ifs
  · rfl
  · exact absFrom_append_empty 0 _ s.slots

theorem absFrom_ensureCapacity (s : DenseStore α) (n : ℕ) :
    absFrom 0 (s.ensureCapacity n).slots = absFrom 0 s.slots :=
  toIndexMap_ensureCapacity s n

theorem lt_length_ensureCapacity (s : DenseStore α) (i : ℕ) :
    i < (s.ensureCapacity (i + 1)).slots.length := by
  unfold ensureCapacity
  split_ifs with h
  · omega
  · simp; omega

theorem counted_ensureCapacity {s : DenseStore α} (h : s.Counted) (n : ℕ) :
    (s.ensureCapacity n).Counted := by
  unfold Counted at *
  rw [toIndexMap_ensureCapacity]
  unfold ensureCapacity; split_ifs <;> exact h

/-- The number of entries after overwriting slot `i`. -/
theorem length_absFrom_set {l : List (DenseSlot α)} {i : ℕ} (hi : i < l.length)
    (slot : DenseSlot α) :
    ((absFrom 0 (l.set i slot)).length : ℤ) = (absFrom 0 l).length
      - (if (l.getD i .empty).occupied then 1 else 0) + (if slot.occupied then 1 else 0) := by
  have hd : l.getD i .empty = l[i] := by simp [hi]
  have hle := List.boole_getElem_le_countP (·.occupied) l i hi
  rw [length_absFrom, length_absFrom, List.countP_set _ _ _ _ hi, hd]
  split_ifs at hle ⊢ <;> omega

/-- **One write call refines the map.** -/
theorem apply_refines {s : DenseStore α} (h : s.Counted) (op : StoreOp α) :
    (s.apply op).1.toIndexMap = (s.toIndexMap.apply op).1 ∧
      (s.apply op).2 = (s.toIndexMap.apply op).2 ∧ (s.apply op).1.Counted := by
  cases op with
  | set id v =>
    by_cases hz : id.isZero
    · simp [apply, set, IndexMap.apply, hz, h]
    · have hi := lt_length_ensureCapacity s id.index.toNat
      have hc := counted_ensureCapacity h (id.index.toNat + 1)
      refine ⟨?_, by simp [apply, set, IndexMap.apply, hz], ?_⟩
      · simp [apply, set, IndexMap.apply, hz, toIndexMap, absFrom_set hi,
          absFrom_ensureCapacity]
      · simp only [Counted, toIndexMap] at hc
        simp only [apply, set, hz, if_false, Bool.false_eq_true, Counted, toIndexMap]
        rw [length_absFrom_set hi, ← hc]
        cases ((s.ensureCapacity (id.index.toNat + 1)).slots.getD id.index.toNat
          .empty).occupied <;> simp
  | remove id =>
    by_cases hh : s.has id
    · have hh' := hh
      rw [has_eq, IndexMap.has, lookup_toIndexMap] at hh'
      cases hs : s.slots[id.index.toNat]? with
      | none => simp [hs] at hh'
      | some slot =>
        have hi : id.index.toNat < s.slots.length := by
          by_contra hn; simp [List.getElem?_eq_none (Nat.le_of_not_lt hn)] at hs
        have hg : s.slots.getD id.index.toNat .empty = slot := by simp [hs]
        have ho : slot.occupied = true := by by_contra ho; simp [hs, ho] at hh'
        have hM : (absFrom 0 s.slots).has id = true := (has_eq s id).symm.trans hh
        refine ⟨?_, by simp [apply, remove, IndexMap.apply, hh, ← has_eq], ?_⟩
        · simp [apply, remove, IndexMap.apply, hh, hM, hg, toIndexMap, absFrom_set hi]
        · simp only [Counted, toIndexMap] at h
          simp only [apply, remove, hh, Bool.not_true, Bool.false_eq_true, if_false, hg,
            Counted, toIndexMap]
          rw [length_absFrom_set hi, hg, ho, ← h]
          simp
    · simp [apply, remove, IndexMap.apply, hh, ← has_eq, h]
  | clear =>
    refine ⟨absFrom_map_empty' s.slots, rfl, ?_⟩
    simp [apply, clear, Counted, toIndexMap, absFrom_replicate_empty]

theorem run_refines {s : DenseStore α} (h : s.Counted) (ops : List (StoreOp α)) :
    (s.run ops).1.toIndexMap = (s.toIndexMap.run ops).1 ∧
      (s.run ops).2 = (s.toIndexMap.run ops).2 ∧ (s.run ops).1.Counted := by
  induction ops generalizing s with
  | nil => exact ⟨rfl, rfl, h⟩
  | cons op ops ih =>
    obtain ⟨h1, h2, h3⟩ := apply_refines h op
    obtain ⟨i1, i2, i3⟩ := ih h3
    refine ⟨?_, ?_, i3⟩
    · simp only [run, IndexMap.run]; rw [i1, h1]
    · simp only [run, IndexMap.run]; rw [i2, h1, h2]

/-! ### What a write leaves alone -/

/-- A `Set` leaves `Has` and `Get` of every id of another index as they were. -/
theorem set_frame {s : DenseStore α} (hc : s.Counted) {e x : EntityID} (hx : x.index ≠ e.index)
    (v : Option α) : (s.set e v).1.has x = s.has x ∧ (s.set e v).1.get x = s.get x := by
  have h := (apply_refines hc (.set e v)).1
  simp only [apply] at h
  rw [has_eq, has_eq, get_eq, get_eq, h]
  apply IndexMap.has_get_congr
  simp only [IndexMap.apply]
  split_ifs
  · rfl
  · exact IndexMap.lookup_insert_ne _ (fun h => hx ((UInt32.eq_iff_toNat_eq _ _).2 h)) _

/-- A `Remove` leaves `Has` and `Get` of every other id as they were. -/
theorem remove_frame {s : DenseStore α} (hc : s.Counted) {e x : EntityID} (hx : x ≠ e) :
    (s.remove e).1.has x = s.has x ∧ (s.remove e).1.get x = s.get x := by
  have h := (apply_refines hc (.remove e)).1
  simp only [apply] at h
  rw [has_eq, has_eq, get_eq, get_eq, h]
  generalize s.toIndexMap = M
  simp only [IndexMap.apply]
  split_ifs with he
  · by_cases hi : x.index = e.index
    · have hg : x.generation ≠ e.generation := fun hg => hx (by cases x; cases e; simp_all)
      obtain ⟨v, hv⟩ : ∃ v, M.lookup e.index.toNat = some (e.generation, v) := by
        simp only [IndexMap.has, beq_iff_eq, Option.map_eq_some', Prod.exists, exists_and_right,
          exists_eq_right] at he
        exact he
      simp [IndexMap.has, IndexMap.get, IndexMap.lookup_erase, hi, hv, Ne.symm hg]
    · exact IndexMap.has_get_congr (by
        rw [IndexMap.lookup_erase, if_neg fun h => hi ((UInt32.eq_iff_toNat_eq _ _).2 h)])
  · exact ⟨rfl, rfl⟩

end DenseStore

/-- **The dense store is a finite map from index to `(generation, value)`.**
After any run of `Set`, `Remove` and `Clear` calls from `NewStore`, with any
ids and values, the store replies as the map `M` does (`Set` of the zero id
is refused by both, `Remove` succeeds exactly when `M[id.Index()]` has the
id's generation), its occupied slots are `M`, `Len` is `|M|`, `Has` and `Get`
read `M[id.Index()]` gated on the generation, and `Iterate` visits the
entries of `M` in strictly increasing index order, each as
`EntityIDFromParts(uint32(idx), g)`, until the visitor stops it; a visitor
that always continues sees each entry of `M` exactly once, in order. -/
theorem dense_refines_indexMap (t : ComponentType) (ops : List (StoreOp α)) :
    let s := ((newDenseStore t : DenseStore α).run ops).1
    let M := (IndexMap.run [] ops).1
    ((newDenseStore t : DenseStore α).run ops).2 = (IndexMap.run [] ops).2 ∧
      s.toIndexMap = M ∧ s.len = M.length ∧ (∀ id, s.has id = M.has id) ∧
      (∀ id, s.get id = M.get id) ∧
      (∀ (σ : Type) (fn : σ → EntityID → Option α → σ × Bool) (init : σ),
        s.iterate fn init = M.visit fn init) ∧
      (∀ (σ : Type) (fn : σ → EntityID → Option α → σ × Bool) (init : σ),
        (∀ acc id v, (fn acc id v).2 = true) →
          s.iterate fn init = M.foldl (fun acc e =>
            (fn acc (entityIDFromParts (UInt32.ofNat e.1) e.2.1) e.2.2).1) init) ∧
      (M.map Prod.fst).Sorted (· < ·) := by
  intro s M
  obtain ⟨h1, h2, h3⟩ := DenseStore.run_refines (DenseStore.counted_new t) ops
  have hM : s.toIndexMap = M := h1
  have hit : ∀ (σ : Type) (fn : σ → EntityID → Option α → σ × Bool) (init : σ),
      s.iterate fn init = M.visit fn init := fun σ fn init => by rw [DenseStore.iterate_eq, hM]
  refine ⟨h2, hM, by rw [DenseStore.len_eq h3, hM], fun id => by rw [DenseStore.has_eq, hM],
    fun id => by rw [DenseStore.get_eq, hM], hit,
    fun σ fn init hfn => (hit σ fn init).trans (IndexMap.visit_of_continue fn hfn M init),
    by rw [← hM]; exact sorted_absFrom 0 _⟩

end Storage
end Ecs

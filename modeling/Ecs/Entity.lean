/-
# The entity registry

`entity.go`: `EntityRegistry` with `Create`, `Destroy`, `IsAlive`, `Count` and
`isAliveLocked`.  The mutex is not modelled: every method holds it for its
whole body, so a run of calls is a sequence.

`generations` and `free` are Go slices of `uint32`; `alive` is a `uint32`.
`Create` pops the last free index, or appends a slot whose index is
`uint32(len(generations))`, and increments that slot's generation; `Destroy`
of an id that `isAliveLocked` accepts increments it again and pushes the index.
Indexing past the end of `generations` panics in Go; no reachable state does
it, and the model reads such a slot as `0` and leaves it unwritten.

Over whole runs of calls: `create_never_reissues` (within `2 ^ 32` calls no id
is issued twice), `create_reissues_after_wrap` (after `2 ^ 31` cycles of one
slot one is), and `count_eq_live_issued` (while every `Destroy` is passed an
id `Create` returned, `Count` and `IsAlive` agree with the history).
-/

import Ecs.Basic

namespace Ecs

/-- Go's `EntityRegistry`, without its mutex. -/
structure EntityRegistry where
  generations : List UInt32
  free : List UInt32
  alive : UInt32
deriving DecidableEq, Repr

/-- Go's `NewEntityRegistry`. -/
def newEntityRegistry : EntityRegistry := ⟨[], [], 0⟩

namespace EntityRegistry

/-- The generation stored for slot `i`. -/
def gen (r : EntityRegistry) (i : ℕ) : UInt32 := r.generations.getD i 0

/-- Go's `isAliveLocked`: the index is below `uint32(len(generations))` and the
slot's generation is the id's. -/
def isAliveLocked (r : EntityRegistry) (id : EntityID) : Bool :=
  if id.index ≥ UInt32.ofNat r.generations.length then false
  else r.gen id.index.toNat == id.generation

/-- Go's `IsAlive`. -/
def isAlive (r : EntityRegistry) (id : EntityID) : Bool :=
  if id.isZero then false else r.isAliveLocked id

/-- Go's `Count`: `int(alive)`. -/
def count (r : EntityRegistry) : ℕ := r.alive.toNat

/-- Go's `Create`: the last free index if there is one, else a new slot at
`uint32(len(generations))`; then `generations[index]++`. -/
def create (r : EntityRegistry) : EntityRegistry × EntityID :=
  let (index, generations, free) : UInt32 × List UInt32 × List UInt32 :=
    match r.free.getLast? with
    | some i => (i, r.generations, r.free.dropLast)
    | none => (UInt32.ofNat r.generations.length, r.generations ++ [0], r.free)
  let generation := generations.getD index.toNat 0 + 1
  ({ generations := generations.set index.toNat generation, free, alive := r.alive + 1 },
    ⟨index, generation⟩)

/-- Go's `Destroy`: refuses the zero id and ids `isAliveLocked` rejects;
otherwise `alive--`, `generations[index]++` and the index is pushed on `free`. -/
def destroy (r : EntityRegistry) (id : EntityID) : EntityRegistry × Bool :=
  if id.isZero then (r, false)
  else if !r.isAliveLocked id then (r, false)
  else
    ({ generations := r.generations.set id.index.toNat (r.gen id.index.toNat + 1),
       free := r.free ++ [id.index], alive := r.alive - 1 }, true)

/-! ### Runs of calls -/

/-- A call of one of the registry's public methods. -/
inductive Call
  | create
  | destroy (id : EntityID)
  | isAlive (id : EntityID)
  | count
deriving DecidableEq, Repr

/-- What a call returned. -/
inductive Reply
  | id (e : EntityID)
  | bool (b : Bool)
  | int (n : ℕ)
deriving DecidableEq, Repr

/-- The id a reply carries, for the replies of `Create`. -/
def Reply.created? : Reply → Option EntityID
  | .id e => some e
  | _ => none

/-- One call. -/
def call (r : EntityRegistry) : Call → EntityRegistry × Reply
  | .create => ((r.create).1, .id (r.create).2)
  | .destroy id => ((r.destroy id).1, .bool (r.destroy id).2)
  | .isAlive id => (r, .bool (r.isAlive id))
  | .count => (r, .int r.count)

/-- A run of calls, with the replies in order. -/
def run (r : EntityRegistry) : List Call → EntityRegistry × List Reply
  | [] => (r, [])
  | c :: cs => ((r.call c).1.run cs |>.1, (r.call c).2 :: ((r.call c).1.run cs).2)

/-- The ids `Destroy` accepted during a run. -/
def destroyed : List Call → List Reply → List EntityID
  | .destroy id :: cs, .bool true :: rs => id :: destroyed cs rs
  | _ :: cs, _ :: rs => destroyed cs rs
  | _, _ => []

theorem run_append (r : EntityRegistry) (xs ys : List Call) :
    r.run (xs ++ ys) = ((r.run xs).1.run ys |>.1, (r.run xs).2 ++ ((r.run xs).1.run ys).2) := by
  induction xs generalizing r with
  | nil => rfl
  | cons c cs ih => rw [List.cons_append]; simp only [run, ih, List.cons_append]

/-- **`IsAlive` accepts an id that was never issued.**  After `Create` and
`Destroy` of `⟨0, 1⟩` slot `0` holds generation `2`, so `EntityIDFromParts(0, 2)`
is alive; `Destroy` accepts it, `alive` wraps to `2 ^ 32 - 1`, index `0` is on
the free list twice, and the next two `Create`s both take it, the second
silently killing the first. -/
theorem isAlive_accepts_unissued_id :
    newEntityRegistry.run [.create, .destroy ⟨0, 1⟩, .isAlive (entityIDFromParts 0 2),
      .destroy (entityIDFromParts 0 2), .count, .create, .create, .isAlive ⟨0, 4⟩] =
    (⟨[5], [], 1⟩, [.id ⟨0, 1⟩, .bool true, .bool true, .bool true, .int 4294967295,
      .id ⟨0, 4⟩, .id ⟨0, 5⟩, .bool false]) := by
  decide

theorem run_cons (r : EntityRegistry) (c : Call) (cs : List Call) :
    r.run (c :: cs) = ((r.call c).1.run cs |>.1, (r.call c).2 :: ((r.call c).1.run cs).2) := rfl

theorem destroyed_cons (c : Call) (cs : List Call) (x : Reply) (xs : List Reply) :
    destroyed (c :: cs) (x :: xs) = destroyed [c] [x] ++ destroyed cs xs := by
  rcases c with _ | id | _ | _ <;> rcases x with _ | (_ | _) | _ <;> rfl

/-! ### Generations only grow while they do not wrap -/

@[simp] theorem gen_mk (g f : List UInt32) (a : UInt32) (i : ℕ) :
    gen ⟨g, f, a⟩ i = g.getD i 0 := rfl

theorem getD_set_self {l : List UInt32} {i : ℕ} (h : i < l.length) (a : UInt32) :
    (l.set i a).getD i 0 = a := by
  simp [h]

theorem getD_set_ne {l : List UInt32} {i j : ℕ} (h : i ≠ j) (a : UInt32) :
    (l.set i a).getD j 0 = l.getD j 0 := by
  simp [List.getElem?_set_ne h]

theorem getD_append_one {l : List UInt32} {j : ℕ} (h : j < l.length) (a : UInt32) :
    (l ++ [a]).getD j 0 = l.getD j 0 := by
  simp [List.getElem?_append_left h]

theorem lt_length_of_gen_pos {r : EntityRegistry} {i : ℕ} (h : 0 < (r.gen i).toNat) :
    i < r.generations.length := by
  by_contra hi
  simp [gen, List.getElem?_eq_none (Nat.le_of_not_lt hi)] at h

/-- What a run of `n` calls keeps while `n < 2 ^ 32`: no slot's generation and
no slot count has reached `2 ^ 32`, every issued id's generation is at most
its slot's, every destroyed id's is below it, and the issued ids are distinct. -/
structure Fresh (r : EntityRegistry) (issued killed : List EntityID) (n : ℕ) : Prop where
  length_le : r.generations.length ≤ n
  gen_le : ∀ i, (r.gen i).toNat ≤ n
  free_lt : ∀ i ∈ r.free, i.toNat < r.generations.length
  issued_le : ∀ e ∈ issued,
    e.index.toNat < r.generations.length ∧ e.generation.toNat ≤ (r.gen e.index.toNat).toNat
  killed_lt : ∀ e ∈ killed, e.generation.toNat < (r.gen e.index.toNat).toNat
  nodup : issued.Nodup

theorem fresh_new : Fresh newEntityRegistry [] [] 0 :=
  ⟨le_rfl, fun _ => by simp [newEntityRegistry], by simp [newEntityRegistry], by simp,
    by simp, List.nodup_nil⟩

variable {r : EntityRegistry} {iss kil : List EntityID} {n : ℕ}

theorem Fresh.mono (h : Fresh r iss kil n) : Fresh r iss kil (n + 1) :=
  { h with length_le := by have := h.length_le; omega
           gen_le := fun i => by have := h.gen_le i; omega }

/-- Bumping the generation of a slot `i` below the length, from a value below
`2 ^ 32 - 1`, keeps `Fresh` with one more call, and the bumped id `⟨i, g + 1⟩`
is new. -/
theorem Fresh.bump (h : Fresh r iss kil n) (hn : n + 1 < 2 ^ 32) {i : UInt32}
    (hi : i.toNat < r.generations.length) (free' : List UInt32)
    (hfree : ∀ j ∈ free', j.toNat < r.generations.length) (alive' : UInt32) :
    Fresh ⟨r.generations.set i.toNat (r.gen i.toNat + 1), free', alive'⟩ iss kil (n + 1) ∧
      ((⟨i, r.gen i.toNat + 1⟩ : EntityID) ∉ iss) := by
  have hg := h.gen_le i.toNat
  have h1 : (r.gen i.toNat + 1).toNat = (r.gen i.toNat).toNat + 1 :=
    UInt32.toNat_add_one (by omega)
  have hgen : ∀ j, (gen ⟨r.generations.set i.toNat (r.gen i.toNat + 1), free', alive'⟩ j).toNat
      = if j = i.toNat then (r.gen j).toNat + 1 else (r.gen j).toNat := by
    intro j
    split_ifs with hj
    · subst hj; simp only [gen_mk, getD_set_self hi, h1]
    · simp only [gen_mk, getD_set_ne (Ne.symm hj)]; rfl
  refine ⟨⟨by simp; have := h.length_le; omega, fun j => ?_, by simpa using hfree,
    fun e he => ?_, fun e he => ?_, h.nodup⟩, fun he => ?_⟩
  · rw [hgen]; have := h.gen_le j; split_ifs <;> omega
  · obtain ⟨h2, h3⟩ := h.issued_le e he
    refine ⟨by simpa using h2, ?_⟩
    rw [hgen]; split_ifs <;> omega
  · have := h.killed_lt e he
    rw [hgen]; split_ifs <;> omega
  · have := (h.issued_le _ he).2
    simp only [h1] at this
    omega

/-- `Create` on a non-empty free list recycles its last index. -/
theorem create_of_getLast? {i : UInt32} (h : r.free.getLast? = some i) :
    r.create = (⟨r.generations.set i.toNat (r.gen i.toNat + 1), r.free.dropLast, r.alive + 1⟩,
      ⟨i, r.gen i.toNat + 1⟩) := by
  simp [create, h, gen]

/-- `Create` on an empty free list appends a slot of generation `1`, while the
slot count fits a `uint32`. -/
theorem create_of_getLast?_none (h : r.free.getLast? = none) (hlen : r.generations.length < 2 ^ 32) :
    r.create = (⟨r.generations ++ [1], r.free, r.alive + 1⟩,
      ⟨UInt32.ofNat r.generations.length, 1⟩) := by
  have hlt : r.generations.length % 4294967296 = r.generations.length := Nat.mod_eq_of_lt hlen
  simp [create, h, hlt]

theorem Fresh.create (h : Fresh r iss kil n) (hn : n + 1 < 2 ^ 32) :
    Fresh r.create.1 (iss ++ [r.create.2]) kil (n + 1) := by
  cases hl : r.free.getLast? with
  | some i =>
    have hi := h.free_lt i (List.mem_of_getLast?_eq_some hl)
    obtain ⟨hf, hnew⟩ := h.bump hn hi r.free.dropLast
      (fun j hj => h.free_lt j (List.dropLast_subset _ hj)) (r.alive + 1)
    rw [create_of_getLast? hl]
    refine { hf with
      issued_le := fun e he => ?_
      nodup := h.nodup.append (List.nodup_singleton _) (List.disjoint_singleton.2 hnew) }
    rcases List.mem_append.1 he with he | he
    · exact hf.issued_le e he
    · rw [List.mem_singleton.1 he]
      exact ⟨by simpa using hi, le_of_eq (congrArg UInt32.toNat (getD_set_self hi _).symm)⟩
  | none =>
    have hlen : r.generations.length < 2 ^ 32 := by have := h.length_le; omega
    have hlt : r.generations.length % 4294967296 = r.generations.length := Nat.mod_eq_of_lt hlen
    rw [create_of_getLast?_none hl hlen]
    have hgen : ∀ j, j < r.generations.length → (r.generations ++ [1]).getD j 0 = r.gen j :=
      fun j hj => getD_append_one hj 1
    refine ⟨by simp; have := h.length_le; omega, fun j => ?_, fun j hj => ?_, fun e he => ?_,
      fun e he => ?_, h.nodup.append (List.nodup_singleton _) (List.disjoint_singleton.2 ?_)⟩
    · rcases Nat.lt_trichotomy j r.generations.length with hj | rfl | hj
      · simp only [gen_mk, hgen j hj]; have := h.gen_le j; omega
      · simp
      · simp [List.getElem?_eq_none (show (r.generations ++ [1]).length ≤ j by simp; omega)]
    · have := h.free_lt j hj; simp; omega
    · rcases List.mem_append.1 he with he | he
      · obtain ⟨h2, h3⟩ := h.issued_le e he
        exact ⟨by simp; omega, by simpa only [gen_mk, hgen _ h2] using h3⟩
      · rw [List.mem_singleton.1 he]; simp [hlt]
    · have h2 := h.killed_lt e he
      have h3 := lt_length_of_gen_pos (r := r) (i := e.index.toNat) (by omega)
      simpa only [gen_mk, hgen _ h3] using h2
    · intro ha
      have := (h.issued_le _ ha).1; simp [hlt] at this

theorem isAliveLocked_iff (hlen : r.generations.length < 2 ^ 32) (id : EntityID) :
    r.isAliveLocked id = true ↔
      id.index.toNat < r.generations.length ∧ r.gen id.index.toNat = id.generation := by
  have hlt : r.generations.length % 2 ^ 32 = r.generations.length := Nat.mod_eq_of_lt hlen
  have hge : id.index ≥ UInt32.ofNat r.generations.length ↔
      r.generations.length ≤ id.index.toNat := by
    rw [ge_iff_le, UInt32.le_iff_toNat_le, UInt32.toNat_ofNat', hlt]
  unfold isAliveLocked
  split_ifs with h <;> simp only [hge] at h <;> simp <;> omega

/-- `Destroy` changes the registry exactly when it returns `true`. -/
theorem destroy_eq (id : EntityID) :
    r.destroy id = if id.isZero = false ∧ r.isAliveLocked id = true then
      (⟨r.generations.set id.index.toNat (r.gen id.index.toNat + 1), r.free ++ [id.index],
        r.alive - 1⟩, true) else (r, false) := by
  unfold EntityRegistry.destroy
  by_cases hz : id.isZero <;> by_cases ha : r.isAliveLocked id <;> simp [hz, ha]

theorem Fresh.destroy (h : Fresh r iss kil n) (hn : n + 1 < 2 ^ 32) (id : EntityID) :
    Fresh (r.destroy id).1 iss (kil ++ if (r.destroy id).2 then [id] else []) (n + 1) := by
  have hlen : r.generations.length < 2 ^ 32 := by have := h.length_le; omega
  by_cases hc : id.isZero = false ∧ r.isAliveLocked id = true
  · rw [destroy_eq, if_pos hc]
    obtain ⟨hi, hg⟩ := (isAliveLocked_iff hlen id).1 hc.2
    obtain ⟨hf, -⟩ := h.bump hn hi (r.free ++ [id.index])
      (fun j hj => by
        rcases List.mem_append.1 hj with hj | hj
        · exact h.free_lt j hj
        · rw [List.mem_singleton.1 hj]; exact hi) (r.alive - 1)
    refine { hf with killed_lt := fun e he => ?_ }
    rcases List.mem_append.1 he with he | he
    · exact hf.killed_lt e he
    · rw [List.mem_singleton.1 he]
      have h1 : (r.gen id.index.toNat + 1).toNat = (r.gen id.index.toNat).toNat + 1 :=
        UInt32.toNat_add_one (by have := h.gen_le id.index.toNat; omega)
      simp only [gen_mk, getD_set_self hi, h1, ← hg]
      exact Nat.lt_succ_self _
  · rw [destroy_eq, if_neg hc]
    simpa using h.mono

theorem Fresh.of_call (h : Fresh r iss kil n) (hn : n + 1 < 2 ^ 32) (c : Call) :
    Fresh (r.call c).1 (iss ++ ((r.call c).2.created?).toList)
      (kil ++ destroyed [c] [(r.call c).2]) (n + 1) := by
  cases c with
  | create => simpa [call, Reply.created?, destroyed] using h.create hn
  | destroy id =>
    have := h.destroy hn id
    cases hd : (r.destroy id).2 <;> simpa [call, Reply.created?, destroyed, hd] using this
  | isAlive id => simpa [call, Reply.created?, destroyed] using h.mono
  | count => simpa [call, Reply.created?, destroyed] using h.mono

theorem Fresh.of_run (h : Fresh r iss kil n) (cs : List Call) (hn : n + cs.length < 2 ^ 32) :
    Fresh (r.run cs).1 (iss ++ (r.run cs).2.filterMap Reply.created?)
      (kil ++ destroyed cs (r.run cs).2) (n + cs.length) := by
  induction cs generalizing r iss kil n with
  | nil => simpa [run, destroyed] using h
  | cons c cs ih =>
    have := ih (h.of_call (by simp at hn; omega) c) (by simp at hn; omega)
    rw [run_cons, destroyed_cons]
    cases hx : (r.call c).2 <;>
      simpa [Reply.created?, List.filterMap_cons, hx, Nat.add_right_comm, Nat.add_assoc]
        using this

/-- **Within `2 ^ 32` calls no id is issued twice.**  In every run of fewer than
`2 ^ 32` calls from `NewEntityRegistry`, with any arguments, the ids `Create`
returns are pairwise distinct, and no id that `Destroy` accepted is alive at
the end: each slot's generation only grows, and it cannot reach `2 ^ 32`. -/
theorem create_never_reissues (cs : List Call) (hcs : cs.length < 2 ^ 32) :
    ((newEntityRegistry.run cs).2.filterMap Reply.created?).Nodup ∧
      ∀ e ∈ destroyed cs (newEntityRegistry.run cs).2,
        (newEntityRegistry.run cs).1.isAlive e = false := by
  have h := fresh_new.of_run cs (by simpa using hcs)
  simp only [List.nil_append, Nat.zero_add] at h
  refine ⟨h.nodup, fun e he => ?_⟩
  have hk := h.killed_lt e he
  have hlen : (newEntityRegistry.run cs).1.generations.length < 2 ^ 32 := by
    have := h.length_le; omega
  unfold isAlive
  split_ifs
  · rfl
  · rw [Bool.eq_false_iff]
    intro ha
    rw [((isAliveLocked_iff hlen e).1 ha).2] at hk
    exact lt_irrefl _ hk

theorem create_never_reissues_on_recycle :
    [Call.create, .destroy ⟨0, 1⟩, .create].length < 2 ^ 32 ∧
      ((newEntityRegistry.run [.create, .destroy ⟨0, 1⟩, .create]).2.filterMap
        Reply.created?).Nodup ∧
      ∀ e ∈ destroyed [.create, .destroy ⟨0, 1⟩, .create]
          (newEntityRegistry.run [.create, .destroy ⟨0, 1⟩, .create]).2,
        (newEntityRegistry.run [.create, .destroy ⟨0, 1⟩, .create]).1.isAlive e = false :=
  ⟨by decide, create_never_reissues _ (by decide)⟩

/-! ### After `2 ^ 31` cycles of one slot its generation wraps -/

/-- Every `Destroy` of a run from `r` is passed an id that a `Create` of the run
returned before it; `iss` holds those returned so far. -/
inductive DestroysIssued : EntityRegistry → List EntityID → List Call → Prop
  | nil (r : EntityRegistry) (iss : List EntityID) : DestroysIssued r iss []
  | cons (r : EntityRegistry) (iss : List EntityID) (c : Call) (cs : List Call) :
      (∀ id, c = .destroy id → id ∈ iss) →
      DestroysIssued (r.call c).1 (iss ++ ((r.call c).2.created?).toList) cs →
      DestroysIssued r iss (c :: cs)

theorem destroysIssued_cons {r : EntityRegistry} {iss : List EntityID} {c : Call}
    {cs : List Call} : DestroysIssued r iss (c :: cs) ↔ (∀ id, c = .destroy id → id ∈ iss) ∧
      DestroysIssued (r.call c).1 (iss ++ ((r.call c).2.created?).toList) cs :=
  ⟨fun | .cons _ _ _ _ h1 h2 => ⟨h1, h2⟩, fun ⟨h1, h2⟩ => .cons _ _ _ _ h1 h2⟩

theorem destroysIssued_append (r : EntityRegistry) (iss : List EntityID) (xs ys : List Call) :
    DestroysIssued r iss (xs ++ ys) ↔ DestroysIssued r iss xs ∧
      DestroysIssued (r.run xs).1 (iss ++ (r.run xs).2.filterMap Reply.created?) ys := by
  induction xs generalizing r iss with
  | nil => simp [run, DestroysIssued.nil]
  | cons c cs ih =>
    rw [List.cons_append, destroysIssued_cons, destroysIssued_cons, ih, run_cons, and_assoc]
    cases (r.call c).2 <;> simp [Reply.created?, List.filterMap_cons]

/-- The `j`-th create/destroy cycle of slot `0`. -/
def cycle (j : ℕ) : List Call := [.create, .destroy ⟨0, UInt32.ofNat (2 * j + 1)⟩]

/-- The first `m` cycles. -/
def cycles : ℕ → List Call
  | 0 => []
  | m + 1 => cycles m ++ cycle m

/-- What the first `m` cycles reply. -/
def cycleReplies : ℕ → List Reply
  | 0 => []
  | m + 1 => cycleReplies m ++ [.id ⟨0, UInt32.ofNat (2 * m + 1)⟩, .bool true]

/-- Slot `0` on the free list with generation `2 j`. -/
def parked (j : ℕ) : EntityRegistry := ⟨[UInt32.ofNat (2 * j)], [0], 0⟩

theorem create_parked (j : ℕ) :
    (parked j).create = (⟨[UInt32.ofNat (2 * j + 1)], [], 1⟩, ⟨0, UInt32.ofNat (2 * j + 1)⟩) := by
  rw [create_of_getLast? (r := parked j) (i := 0) rfl]
  simp only [parked, gen_mk, UInt32.toNat_zero, List.getD_cons_zero, List.set_cons_zero,
    UInt32.ofNat_add_one]
  rfl

theorem destroy_after_create_parked (j : ℕ) :
    (EntityRegistry.mk [UInt32.ofNat (2 * j + 1)] [] 1).destroy ⟨0, UInt32.ofNat (2 * j + 1)⟩ =
      (parked (j + 1), true) := by
  have hz : (⟨0, UInt32.ofNat (2 * j + 1)⟩ : EntityID).isZero = false := by
    rw [Bool.eq_false_iff]
    simp only [ne_eq, EntityID.isZero_eq_true, true_and, UInt32.eq_iff_toNat_eq,
      UInt32.toNat_ofNat', UInt32.toNat_zero]
    omega
  have ha : (EntityRegistry.mk [UInt32.ofNat (2 * j + 1)] [] 1).isAliveLocked
      ⟨0, UInt32.ofNat (2 * j + 1)⟩ = true :=
    (isAliveLocked_iff (by simp) _).2 ⟨by simp, rfl⟩
  rw [destroy_eq, if_pos ⟨hz, ha⟩]
  simp only [parked, gen_mk, UInt32.toNat_zero, List.getD_cons_zero, List.set_cons_zero,
    UInt32.ofNat_add_one, List.nil_append, show 2 * j + 1 + 1 = 2 * (j + 1) by omega]
  rfl

theorem run_cycle (j : ℕ) :
    (parked j).run (cycle j) = (parked (j + 1), [.id ⟨0, UInt32.ofNat (2 * j + 1)⟩, .bool true]) := by
  simp [cycle, run, call, create_parked, destroy_after_create_parked]

theorem destroysIssued_cycle (j : ℕ) (iss : List EntityID) :
    DestroysIssued (parked j) iss (cycle j) := by
  simp [cycle, destroysIssued_cons, DestroysIssued.nil, call, create_parked,
    destroy_after_create_parked, Reply.created?]

theorem run_cycles (m : ℕ) :
    DestroysIssued newEntityRegistry [] (cycles (m + 1)) ∧
      newEntityRegistry.run (cycles (m + 1)) = (parked (m + 1), cycleReplies (m + 1)) := by
  induction m with
  | zero =>
    refine ⟨?_, by decide⟩
    simp [cycles, cycle, destroysIssued_cons, DestroysIssued.nil, call, Reply.created?]
    decide
  | succ m ih =>
    rw [cycles, destroysIssued_append, run_append, ih.2]
    exact ⟨⟨ih.1, destroysIssued_cycle _ _⟩, by rw [run_cycle]; rfl⟩

theorem mem_cycleReplies (m : ℕ) : Reply.id ⟨0, 1⟩ ∈ cycleReplies (m + 1) := by
  induction m with
  | zero => decide
  | succ m ih => rw [cycleReplies]; exact List.mem_append_left _ ih

/-- **After `2 ^ 31` cycles of one slot, `Create` reissues its first id.**  Each
`Destroy` is passed the id the `Create` just before it returned; the slot's
`uint32` generation goes from `2 ^ 32 - 1` to `0` on the last `Destroy`, so the
next `Create` returns `⟨0, 1⟩` a second time, and the handle `⟨0, 1⟩`, destroyed
in the first cycle, is alive again. -/
theorem create_reissues_after_wrap :
    DestroysIssued newEntityRegistry [] (cycles (2 ^ 31) ++ [.create]) ∧
      ¬((newEntityRegistry.run (cycles (2 ^ 31) ++ [.create])).2.filterMap
        Reply.created?).Nodup ∧
      (newEntityRegistry.run (cycles (2 ^ 31) ++ [.create])).1.isAlive ⟨0, 1⟩ = true := by
  obtain ⟨hd, hr⟩ := run_cycles (2 ^ 31 - 1)
  have e : 2 ^ 31 - 1 + 1 = 2 ^ 31 := Nat.sub_add_cancel Nat.one_le_two_pow
  rw [e] at hd hr
  have hc : (parked (2 ^ 31)).create = (⟨[1], [], 1⟩, ⟨0, 1⟩) := by
    rw [create_parked]; rfl
  refine ⟨(destroysIssued_append _ _ _ _).2 ⟨hd, ?_⟩, ?_, ?_⟩
  · exact .cons _ _ _ _ (fun _ h => Call.noConfusion h) (.nil _ _)
  · rw [run_append, hr]
    simp only [run, call, hc, List.filterMap_append, List.filterMap_cons, Reply.created?,
      List.filterMap_nil]
    intro h
    exact (List.nodup_append.1 h).2.2 (List.mem_filterMap.2 ⟨_, mem_cycleReplies _, rfl⟩)
      (List.mem_singleton_self _)
  · rw [run_append, hr]
    simp only [run, call, hc]
    decide

/-! ### `Count` and `IsAlive` over whole runs -/

/-- An id's liveness depends only on the slot count and its slot's generation. -/
theorem isAliveLocked_congr {r' : EntityRegistry} {e : EntityID}
    (hlen' : r'.generations.length < 2 ^ 32) (hlen : r.generations.length ≤ r'.generations.length)
    (hi : e.index.toNat < r.generations.length) (hg : r'.gen e.index.toNat = r.gen e.index.toNat) :
    r'.isAliveLocked e = r.isAliveLocked e := by
  rw [Bool.eq_iff_iff, isAliveLocked_iff hlen', isAliveLocked_iff (by omega), hg]
  exact ⟨fun h => ⟨hi, h.2⟩, fun h => ⟨by omega, h.2⟩⟩

/-- Two live ids on one slot are the same id. -/
theorem eq_of_isAliveLocked (hlen : r.generations.length < 2 ^ 32) {e e' : EntityID}
    (h : r.isAliveLocked e = true) (h' : r.isAliveLocked e' = true) (hi : e.index = e'.index) :
    e = e' := by
  have := ((isAliveLocked_iff hlen e).1 h).2
  have := ((isAliveLocked_iff hlen e').1 h').2
  cases e; cases e'; simp_all

theorem Fresh.isAliveLocked_killed (h : Fresh r iss kil n) (hn : n < 2 ^ 32) {e : EntityID}
    (he : e ∈ kil) : r.isAliveLocked e = false := by
  rw [Bool.eq_false_iff]
  intro ha
  have hk := h.killed_lt e he
  rw [((isAliveLocked_iff (by have := h.length_le; omega) e).1 ha).2] at hk
  exact lt_irrefl _ hk

/-- What `Count` and `IsAlive` rest on, beside `Fresh`: the issued ids not
destroyed are alive, a free slot holds no such id and is free once, the
destroyed ids are distinct issued ids, no issued id is the zero id's
generation `0`, and `alive` is the number of issued ids less the destroyed. -/
structure Counted (r : EntityRegistry) (issued killed : List EntityID) (n : ℕ) : Prop where
  live : ∀ e ∈ issued, e ∉ killed → r.isAliveLocked e = true
  free_dead : ∀ i ∈ r.free, ∀ e ∈ issued, e.index = i → e ∈ killed
  free_nodup : r.free.Nodup
  killed_sub : ∀ e ∈ killed, e ∈ issued
  killed_nodup : killed.Nodup
  gen_pos : ∀ e ∈ issued, e.generation ≠ 0
  issued_le : issued.length ≤ n
  alive_add : r.alive.toNat + killed.length = issued.length

theorem counted_new : Counted newEntityRegistry [] [] 0 :=
  ⟨by simp, by simp [newEntityRegistry], List.nodup_nil, by simp, List.nodup_nil, by simp,
    le_rfl, rfl⟩

theorem Counted.mono (h : Counted r iss kil n) : Counted r iss kil (n + 1) :=
  { h with issued_le := Nat.le_succ_of_le h.issued_le }

theorem not_mem_dropLast_of_getLast? {l : List UInt32} {i : UInt32} (hl : l.Nodup)
    (h : l.getLast? = some i) : i ∉ l.dropLast := by
  rw [← List.dropLast_append_getLast? i h] at hl
  exact fun hi => List.disjoint_of_nodup_append hl hi (List.mem_singleton_self i)

theorem Counted.create (h : Fresh r iss kil n) (hc : Counted r iss kil n) (hn : n + 1 < 2 ^ 32) :
    Counted r.create.1 (iss ++ [r.create.2]) kil (n + 1) := by
  have hf := h.create hn
  have hlen' : r.create.1.generations.length < 2 ^ 32 := by have := hf.length_le; omega
  have halive : (r.alive + 1).toNat = r.alive.toNat + 1 :=
    UInt32.toNat_add_one (by have := hc.alive_add; have := hc.issued_le; omega)
  have hnew : r.create.2 ∉ iss := fun he =>
    (List.disjoint_of_nodup_append hf.nodup he (List.mem_singleton_self _))
  cases hl : r.free.getLast? with
  | some i =>
    have hi := h.free_lt i (List.mem_of_getLast?_eq_some hl)
    have h1 : (r.gen i.toNat + 1).toNat = (r.gen i.toNat).toNat + 1 :=
      UInt32.toNat_add_one (by have := h.gen_le i.toNat; omega)
    rw [create_of_getLast? hl] at hlen' hnew ⊢
    refine ⟨fun e he hk => ?_, fun j hj e he hei => ?_,
      hc.free_nodup.sublist (List.dropLast_sublist _),
      fun e he => List.mem_append_left _ (hc.killed_sub e he), hc.killed_nodup,
      fun e he => ?_, by simpa using hc.issued_le, ?_⟩
    · rcases List.mem_append.1 he with he | he
      · have hne : e.index ≠ i := fun hei =>
          hk (hc.free_dead i (List.mem_of_getLast?_eq_some hl) e he hei)
        have hne' : e.index.toNat ≠ i.toNat := fun h' => hne (UInt32.toNat.inj h')
        rw [isAliveLocked_congr hlen' (by simp) (h.issued_le e he).1
          (getD_set_ne (Ne.symm hne') _)]
        exact hc.live e he hk
      · rw [List.mem_singleton.1 he]
        exact (isAliveLocked_iff hlen' _).2 ⟨by simpa using hi, getD_set_self hi _⟩
    · rcases List.mem_append.1 he with he | he
      · exact hc.free_dead j (List.dropLast_subset _ hj) e he hei
      · obtain rfl : i = j := by rw [List.mem_singleton.1 he] at hei; exact hei
        exact absurd hj (not_mem_dropLast_of_getLast? hc.free_nodup hl)
    · rcases List.mem_append.1 he with he | he
      · exact hc.gen_pos e he
      · rw [List.mem_singleton.1 he]
        intro h0
        have := congrArg UInt32.toNat h0
        simp only [h1, UInt32.toNat_zero] at this
        omega
    · have := hc.alive_add
      simp only [halive, List.length_append, List.length_singleton]
      omega
  | none =>
    have hlen : r.generations.length < 2 ^ 32 := by have := h.length_le; omega
    rw [create_of_getLast?_none hl hlen] at hlen' hnew ⊢
    refine ⟨fun e he hk => ?_, fun j hj e he hei => ?_, hc.free_nodup,
      fun e he => List.mem_append_left _ (hc.killed_sub e he), hc.killed_nodup,
      fun e he => ?_, by simpa using hc.issued_le, ?_⟩
    · rcases List.mem_append.1 he with he | he
      · have hi := (h.issued_le e he).1
        rw [isAliveLocked_congr hlen' (by simp) hi (getD_append_one hi _)]
        exact hc.live e he hk
      · rw [List.mem_singleton.1 he]
        have hlt : r.generations.length % 4294967296 = r.generations.length :=
          Nat.mod_eq_of_lt hlen
        exact (isAliveLocked_iff hlen' _).2 ⟨by simp [hlt], by simp [hlt]⟩
    · rcases List.mem_append.1 he with he | he
      · exact hc.free_dead j hj e he hei
      · have := h.free_lt j hj
        rw [List.mem_singleton.1 he] at hei
        have hlt : r.generations.length % 4294967296 = r.generations.length :=
          Nat.mod_eq_of_lt hlen
        rw [← hei] at this
        simp [hlt] at this
    · rcases List.mem_append.1 he with he | he
      · exact hc.gen_pos e he
      · rw [List.mem_singleton.1 he]; exact (by decide : (1 : UInt32) ≠ 0)
    · have := hc.alive_add
      simp only [halive, List.length_append, List.length_singleton]
      omega

theorem Counted.destroy (h : Fresh r iss kil n) (hc : Counted r iss kil n) (hn : n + 1 < 2 ^ 32)
    {id : EntityID} (hid : id ∈ iss) :
    Counted (r.destroy id).1 iss (kil ++ if (r.destroy id).2 then [id] else []) (n + 1) := by
  have hlen : r.generations.length < 2 ^ 32 := by have := h.length_le; omega
  by_cases hcnd : id.isZero = false ∧ r.isAliveLocked id = true
  · have hf := h.destroy hn id
    rw [destroy_eq, if_pos hcnd] at hf ⊢
    dsimp only at hf ⊢
    have hlen' := lt_of_le_of_lt hf.length_le hn
    have hi := ((isAliveLocked_iff hlen id).1 hcnd.2).1
    have hidk : id ∉ kil := fun hk => by
      have := h.isAliveLocked_killed (by omega) hk
      rw [hcnd.2] at this
      exact Bool.noConfusion this
    have same_slot : ∀ e ∈ iss, e ∉ kil → e.index = id.index → e = id := fun e he hk hei =>
      eq_of_isAliveLocked hlen (hc.live e he hk) hcnd.2 hei
    have hsub : ∀ e ∈ kil ++ [id], e ∈ iss := fun e he => by
      rcases List.mem_append.1 he with he | he
      · exact hc.killed_sub e he
      · rw [List.mem_singleton.1 he]; exact hid
    have hknd : (kil ++ [id]).Nodup :=
      hc.killed_nodup.append (List.nodup_singleton _) (List.disjoint_singleton.2 hidk)
    have hpos : 1 ≤ r.alive.toNat := by
      have hle := (List.subperm_of_subset hknd hsub).length_le
      have := hc.alive_add
      simp only [List.length_append, List.length_singleton] at hle
      omega
    refine ⟨fun e he hk => ?_, fun j hj e he hei => ?_,
      hc.free_nodup.append (List.nodup_singleton _)
        (List.disjoint_singleton.2 fun hm => hidk (hc.free_dead _ hm id hid rfl)),
      hsub, hknd, hc.gen_pos, Nat.le_succ_of_le hc.issued_le, ?_⟩
    · have hk' : e ∉ kil := fun h' => hk (List.mem_append_left _ h')
      have hne : e.index.toNat ≠ id.index.toNat := fun h' =>
        hk (List.mem_append_right _ (List.mem_singleton.2
          (same_slot e he hk' (UInt32.toNat.inj h'))))
      rw [isAliveLocked_congr hlen' (by simp) (h.issued_le e he).1
        (getD_set_ne (Ne.symm hne) _)]
      exact hc.live e he hk'
    · rcases List.mem_append.1 hj with hj | hj
      · exact List.mem_append_left _ (hc.free_dead j hj e he hei)
      · by_cases hk : e ∈ kil
        · exact List.mem_append_left _ hk
        · rw [List.mem_singleton.1 hj] at hei
          exact List.mem_append_right _ (List.mem_singleton.2 (same_slot e he hk hei))
    · have := hc.alive_add
      have h1 : (r.alive - 1).toNat = r.alive.toNat - 1 :=
        UInt32.toNat_sub_of_le _ _ ((UInt32.le_iff_toNat_le _ _).2 hpos)
      simp only [h1, if_true, List.length_append, List.length_singleton]
      omega
  · rw [destroy_eq, if_neg hcnd]
    simpa using hc.mono

theorem Counted.of_call (h : Fresh r iss kil n) (hc : Counted r iss kil n) (hn : n + 1 < 2 ^ 32)
    (c : Call) (hd : ∀ id, c = .destroy id → id ∈ iss) :
    Counted (r.call c).1 (iss ++ ((r.call c).2.created?).toList)
      (kil ++ destroyed [c] [(r.call c).2]) (n + 1) := by
  cases c with
  | create => simpa [call, Reply.created?, destroyed] using hc.create h hn
  | destroy id =>
    have := hc.destroy h hn (hd id rfl)
    cases hd : (r.destroy id).2 <;> simpa [call, Reply.created?, destroyed, hd] using this
  | isAlive id => simpa [call, Reply.created?, destroyed] using hc.mono
  | count => simpa [call, Reply.created?, destroyed] using hc.mono

theorem Counted.of_run (h : Fresh r iss kil n) (hc : Counted r iss kil n) (cs : List Call)
    (hd : DestroysIssued r iss cs) (hn : n + cs.length < 2 ^ 32) :
    Counted (r.run cs).1 (iss ++ (r.run cs).2.filterMap Reply.created?)
      (kil ++ destroyed cs (r.run cs).2) (n + cs.length) := by
  induction cs generalizing r iss kil n with
  | nil => simpa [run, destroyed] using hc
  | cons c cs ih =>
    obtain ⟨hd1, hd2⟩ := destroysIssued_cons.1 hd
    have hn1 : n + 1 < 2 ^ 32 := by simp at hn; omega
    have := ih (h.of_call hn1 c) (hc.of_call h hn1 c hd1) hd2 (by simp at hn; omega)
    rw [run_cons, destroyed_cons]
    cases hx : (r.call c).2 <;>
      simpa [Reply.created?, List.filterMap_cons, hx, Nat.add_right_comm, Nat.add_assoc]
        using this

/-- The ids of a duplicate-free list outside a duplicate-free part of it number
the difference of the lengths. -/
theorem length_filter_not_mem {l s : List EntityID} (hl : l.Nodup) (hs : s.Nodup)
    (hsub : ∀ e ∈ s, e ∈ l) : (l.filter (fun e => e ∉ s)).length = l.length - s.length := by
  have hperm : List.Perm (l.filter (fun e => e ∈ s)) s :=
    (List.perm_ext_iff_of_nodup (hl.filter _) hs).2 fun e => by
      simp only [List.mem_filter, decide_eq_true_eq]
      exact ⟨And.right, fun he => ⟨hsub e he, he⟩⟩
  have := List.length_eq_length_filter_add (l := l) (fun e => decide (e ∈ s))
  simp only [decide_not] at this ⊢
  rw [hperm.length_eq] at this
  omega

/-- **`Count` and `IsAlive` agree with the history of `Create` and `Destroy`.**
In every run of fewer than `2 ^ 32` calls from `NewEntityRegistry` whose every
`Destroy` is passed an id a `Create` returned before it, `Count` is the number
of ids `Create` returned that `Destroy` has not accepted since, `IsAlive` holds
of a returned id exactly when `Destroy` has not accepted it, and `Destroy`
accepted no id twice. -/
theorem count_eq_live_issued (cs : List Call) (hcs : cs.length < 2 ^ 32)
    (hd : DestroysIssued newEntityRegistry [] cs) :
    (newEntityRegistry.run cs).1.count =
        (((newEntityRegistry.run cs).2.filterMap Reply.created?).filter
          (fun e => e ∉ destroyed cs (newEntityRegistry.run cs).2)).length ∧
      (∀ e ∈ (newEntityRegistry.run cs).2.filterMap Reply.created?,
        (newEntityRegistry.run cs).1.isAlive e = true ↔
          e ∉ destroyed cs (newEntityRegistry.run cs).2) ∧
      (destroyed cs (newEntityRegistry.run cs).2).Nodup := by
  have hn : 0 + cs.length < 2 ^ 32 := by omega
  have h := fresh_new.of_run cs hn
  have hc := counted_new.of_run fresh_new cs hd hn
  simp only [List.nil_append, Nat.zero_add] at h hc
  have hlen : (newEntityRegistry.run cs).1.generations.length < 2 ^ 32 := by
    have := h.length_le; omega
  refine ⟨?_, fun e he => ?_, hc.killed_nodup⟩
  · rw [length_filter_not_mem h.nodup hc.killed_nodup hc.killed_sub, count]
    have := hc.alive_add
    omega
  · have hz : e.isZero = false := by
      rw [Bool.eq_false_iff, ne_eq, EntityID.isZero_eq_true]
      exact fun h0 => hc.gen_pos e he h0.2
    rw [isAlive, hz, if_neg Bool.false_ne_true]
    exact ⟨fun ha hk => by rw [h.isAliveLocked_killed (by omega) hk] at ha; exact Bool.noConfusion ha,
      hc.live e he⟩

theorem count_eq_live_issued_after_recycle :
    [Call.create, .create, .destroy ⟨0, 1⟩, .create, .count].length < 2 ^ 32 ∧
      DestroysIssued newEntityRegistry [] [.create, .create, .destroy ⟨0, 1⟩, .create, .count] ∧
      (newEntityRegistry.run [.create, .create, .destroy ⟨0, 1⟩, .create, .count]).1.count =
        (((newEntityRegistry.run [.create, .create, .destroy ⟨0, 1⟩, .create, .count]).2.filterMap
          Reply.created?).filter (fun e => e ∉ destroyed [.create, .create, .destroy ⟨0, 1⟩,
            .create, .count] (newEntityRegistry.run [.create, .create, .destroy ⟨0, 1⟩, .create,
              .count]).2)).length ∧
      (∀ e ∈ (newEntityRegistry.run [.create, .create, .destroy ⟨0, 1⟩, .create, .count]).2.filterMap
          Reply.created?,
        (newEntityRegistry.run [.create, .create, .destroy ⟨0, 1⟩, .create, .count]).1.isAlive e =
            true ↔ e ∉ destroyed [.create, .create, .destroy ⟨0, 1⟩, .create, .count]
              (newEntityRegistry.run [.create, .create, .destroy ⟨0, 1⟩, .create, .count]).2) ∧
      (destroyed [.create, .create, .destroy ⟨0, 1⟩, .create, .count]
        (newEntityRegistry.run [.create, .create, .destroy ⟨0, 1⟩, .create, .count]).2).Nodup := by
  have hd : DestroysIssued newEntityRegistry [] [.create, .create, .destroy ⟨0, 1⟩, .create, .count] := by
    simp [destroysIssued_cons, DestroysIssued.nil]
    decide
  exact ⟨by decide, hd, count_eq_live_issued _ (by decide) hd⟩

end EntityRegistry

end Ecs

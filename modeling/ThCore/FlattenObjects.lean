import Mathlib.Data.Finset.Card
import Mathlib.Logic.Function.Basic

/-!
# `FlattenObjects`: numbered objects in a bitmap-indexed array

`FlattenObjects<T, CAP>` of `vendor/flatten_objects`: an array of `CAP`
possibly-uninitialised slots, a `Bitmap<1024>` of the ids in use, and a count.
An uninitialised slot is `none` here; `remove` reads a slot out without clearing
it, as the code does.

The container is meant to be a partial map from the ids below `CAP` to values.
`Valid` is the representation invariant the code relies on and never checks: the
capacity fits the bitmap, no bit at or above `CAP` is set, every set bit has an
initialised slot, and the count is the number of set bits below `CAP`.
`step_refines` shows each operation keeps `Valid` and is the specified
operation (`specStep`, written from the specification's words) on the map the
container stands for; `flattenObjects_refines` extends this to every sequence of
operations from `FlattenObjects::new()`.
-/

namespace ThCore

/-! ## The bitmap -/

/-- `bitmaps::Bitmap<1024>`: its bits. -/
structure Bitmap where
  bits : Nat → Bool

namespace Bitmap

/-- The bitmap with every bit clear (`MaybeUninit::zeroed()`). -/
def zeroed : Bitmap :=
  ⟨fun _ => false⟩

/-- `Bitmap::get`. -/
def get (bitmap : Bitmap) (index : Nat) : Bool :=
  bitmap.bits index

/-- `Bitmap::set`. -/
def set (bitmap : Bitmap) (index : Nat) (value : Bool) : Bitmap :=
  ⟨Function.update bitmap.bits index value⟩

/-- `Bitmap::<1024>::first_false_index`. -/
def firstFalseIndex (bitmap : Bitmap) : Option Nat :=
  (List.range 1024).find? fun index => !bitmap.get index

@[simp] theorem get_zeroed (index : Nat) : zeroed.get index = false :=
  rfl

@[simp] theorem get_set (bitmap : Bitmap) (index other : Nat) (value : Bool) :
    (bitmap.set index value).get other = if other = index then value else bitmap.get other := by
  simp [get, set, Function.update_apply]

end Bitmap

/-! ## The container -/

/-- `FlattenObjects<T, CAP>`; `objects id` is `none` while the slot is
uninitialised. -/
structure FlattenObjects (α : Type) (CAP : Nat) where
  objects : Nat → Option α
  idBitmap : Bitmap
  count : Nat

namespace FlattenObjects

variable {α : Type} {CAP : Nat}

/-- `FlattenObjects::new`, or `none` where its `assert!(CAP <= 1024)` panics. -/
def new : Option (FlattenObjects α CAP) :=
  if CAP ≤ 1024 then some ⟨fun _ => none, Bitmap.zeroed, 0⟩ else none

/-- `FlattenObjects::is_assigned`. -/
def isAssigned (self : FlattenObjects α CAP) (id : Nat) : Bool :=
  id < CAP && self.idBitmap.get id

/-- `FlattenObjects::get`. -/
def get (self : FlattenObjects α CAP) (id : Nat) : Option α :=
  if self.isAssigned id then self.objects id else none

/-- `FlattenObjects::get_mut`: the reference it returns is to the same object. -/
def getMut (self : FlattenObjects α CAP) (id : Nat) : Option α :=
  if self.isAssigned id then self.objects id else none

/-- What `add`, `add_at` and `add_or_replace_at` do with a free id:
`count += 1`, set the bit, write the slot. -/
def assign (self : FlattenObjects α CAP) (id : Nat) (value : α) : FlattenObjects α CAP :=
  ⟨Function.update self.objects id (some value), self.idBitmap.set id true, self.count + 1⟩

/-- `FlattenObjects::add`. -/
def add (self : FlattenObjects α CAP) (value : α) : FlattenObjects α CAP × Except α Nat :=
  match self.idBitmap.firstFalseIndex with
  | some id => if id < CAP then (self.assign id value, .ok id) else (self, .error value)
  | none => (self, .error value)

theorem bit_of_isAssigned {self : FlattenObjects α CAP} {id : Nat}
    (assigned : self.isAssigned id = true) : self.idBitmap.get id = true := by
  simp only [isAssigned, Bool.and_eq_true] at assigned
  exact assigned.2

/-- `FlattenObjects::add_at`. -/
def addAt (self : FlattenObjects α CAP) (id : Nat) (value : α) :
    FlattenObjects α CAP × Except α Nat :=
  if CAP ≤ id || self.isAssigned id then (self, .error value) else (self.assign id value, .ok id)

/-- `FlattenObjects::add_or_replace_at`. -/
def addOrReplaceAt (self : FlattenObjects α CAP) (id : Nat) (value : α) :
    FlattenObjects α CAP × Except (Option α) Nat :=
  if CAP ≤ id then (self, .error none)
  else if self.isAssigned id then
    ({ self with objects := Function.update self.objects id (some value) }, .error (self.objects id))
  else (self.assign id value, .ok id)

/-- What `remove` does with an assigned id: clear the bit, `count -= 1`. -/
def clear (self : FlattenObjects α CAP) (id : Nat) : FlattenObjects α CAP :=
  { self with idBitmap := self.idBitmap.set id false, count := self.count - 1 }

/-- `FlattenObjects::remove`. -/
def remove (self : FlattenObjects α CAP) (id : Nat) : FlattenObjects α CAP × Option α :=
  if self.isAssigned id then (self.clear id, self.objects id) else (self, none)

end FlattenObjects

/-! ## Sequences of operations -/

/-- An operation on the container. -/
inductive ObjectOp (α : Type) where
  | add (value : α)
  | addAt (id : Nat) (value : α)
  | addOrReplaceAt (id : Nat) (value : α)
  | remove (id : Nat)
  | get (id : Nat)
  | getMut (id : Nat)
  | isAssigned (id : Nat)
  | count

/-- What an operation returns. -/
inductive ObjectResult (α : Type) where
  | added (result : Except α Nat)
  | replaced (result : Except (Option α) Nat)
  | removed (old : Option α)
  | got (object : Option α)
  | assigned (assigned : Bool)
  | counted (count : Nat)

namespace FlattenObjects

variable {α : Type} {CAP : Nat}

/-- One operation. -/
def step (self : FlattenObjects α CAP) : ObjectOp α → FlattenObjects α CAP × ObjectResult α
  | .add value =>
    let result := self.add value
    (result.1, .added result.2)
  | .addAt id value =>
    let result := self.addAt id value
    (result.1, .added result.2)
  | .addOrReplaceAt id value =>
    let result := self.addOrReplaceAt id value
    (result.1, .replaced result.2)
  | .remove id =>
    let result := self.remove id
    (result.1, .removed result.2)
  | .get id => (self, .got (self.get id))
  | .getMut id => (self, .got (self.getMut id))
  | .isAssigned id => (self, .assigned (self.isAssigned id))
  | .count => (self, .counted self.count)

/-- A sequence of operations: the container afterwards and the results. -/
def run (self : FlattenObjects α CAP) : List (ObjectOp α) → FlattenObjects α CAP × List (ObjectResult α)
  | [] => (self, [])
  | op :: ops =>
    let first := self.step op
    let rest := first.1.run ops
    (rest.1, first.2 :: rest.2)

end FlattenObjects

/-! ## The container as a partial map -/

section Spec

variable {α : Type} (CAP : Nat)

/-- The operations as the specification words them, on a partial map from ids
below `CAP`: `add` takes the least free id, `add_at` a free id in range,
`add_or_replace_at` replaces an assigned id and reports the old object, `remove`
returns and deletes, the queries read the map, and `count` is its size. -/
def specStep (objects : Nat → Option α) : ObjectOp α → (Nat → Option α) × ObjectResult α
  | .add value =>
    match (List.range CAP).find? fun id => (objects id).isNone with
    | some id => (Function.update objects id (some value), .added (.ok id))
    | none => (objects, .added (.error value))
  | .addAt id value =>
    if id < CAP ∧ (objects id).isNone then (Function.update objects id (some value), .added (.ok id))
    else (objects, .added (.error value))
  | .addOrReplaceAt id value =>
    if CAP ≤ id then (objects, .replaced (.error none))
    else
      match objects id with
      | some old => (Function.update objects id (some value), .replaced (.error (some old)))
      | none => (Function.update objects id (some value), .replaced (.ok id))
  | .remove id =>
    match objects id with
    | some old => (Function.update objects id none, .removed (some old))
    | none => (objects, .removed none)
  | .get id => (objects, .got (objects id))
  | .getMut id => (objects, .got (objects id))
  | .isAssigned id => (objects, .assigned (objects id).isSome)
  | .count => (objects, .counted ((Finset.range CAP).filter fun id => (objects id).isSome).card)

/-- A sequence of operations on the map. -/
def specRun : (Nat → Option α) → List (ObjectOp α) → (Nat → Option α) × List (ObjectResult α)
  | objects, [] => (objects, [])
  | objects, op :: ops =>
    let first := specStep CAP objects op
    let rest := specRun first.1 ops
    (rest.1, first.2 :: rest.2)

end Spec

/-! ## The representation invariant -/

/-- `find?` looks only at the members of the list. -/
theorem find?_congr_of_mem {p q : Nat → Bool} :
    ∀ {l : List Nat}, (∀ x ∈ l, p x = q x) → l.find? p = l.find? q
  | [], _ => rfl
  | x :: xs, agree => by
    simp only [List.find?_cons, agree x (List.mem_cons_self x xs),
      find?_congr_of_mem fun y member => agree y (List.mem_cons_of_mem x member)]

namespace FlattenObjects

variable {α : Type} {CAP : Nat}

/-- The map the container stands for. -/
def toMap (self : FlattenObjects α CAP) (id : Nat) : Option α :=
  self.get id

/-- The ids in use below `CAP`. -/
def usedIds (self : FlattenObjects α CAP) : Finset Nat :=
  (Finset.range CAP).filter fun id => self.idBitmap.get id = true

theorem toMap_eq_none {self : FlattenObjects α CAP} {id : Nat} (free : self.isAssigned id = false) :
    self.toMap id = none := by
  simp [toMap, get, free]

/-- The representation invariant. -/
structure Valid (container : FlattenObjects α CAP) : Prop where
  capLe : CAP ≤ 1024
  noHighBits : ∀ id, CAP ≤ id → container.idBitmap.get id = false
  initialized : ∀ id, container.idBitmap.get id = true → (container.objects id).isSome
  countEq : container.count = container.usedIds.card

section Valid

variable {self : FlattenObjects α CAP} (valid : self.Valid)
include valid

theorem toMap_isSome {id : Nat} : (self.toMap id).isSome = self.idBitmap.get id := by
  by_cases inRange : id < CAP
  · cases bit : self.idBitmap.get id
    · simp [toMap, get, isAssigned, bit]
    · simp [toMap, get, isAssigned, bit, inRange, valid.initialized id bit]
  · simp [toMap, get, isAssigned, inRange, valid.noHighBits id (Nat.le_of_not_lt inRange)]

theorem isAssigned_eq {id : Nat} : self.isAssigned id = (self.toMap id).isSome := by
  rw [toMap_isSome valid]
  by_cases inRange : id < CAP
  · simp [isAssigned, inRange]
  · simp [isAssigned, inRange, valid.noHighBits id (Nat.le_of_not_lt inRange)]

/-- An assigned id holds an object, and the map reads it. -/
theorem toMap_eq_some {id : Nat} (assigned : self.isAssigned id = true) :
    ∃ old, self.toMap id = some old ∧ self.objects id = some old := by
  obtain ⟨old, stored⟩ :=
    Option.isSome_iff_exists.mp (valid.initialized id (bit_of_isAssigned assigned))
  exact ⟨old, by simp [toMap, get, assigned, stored], stored⟩

theorem count_le : self.count ≤ CAP := by
  rw [valid.countEq, usedIds]
  exact (Finset.card_filter_le _ _).trans (Finset.card_range CAP).le

theorem usedIds_eq : self.usedIds = (Finset.range CAP).filter fun id => (self.toMap id).isSome := by
  simp only [usedIds, toMap_isSome valid]

/-- Writing a free id in range: the map gains it, and the invariant holds. -/
theorem assign_refines {id : Nat} (inRange : id < CAP) (free : self.idBitmap.get id = false)
    (value : α) :
    (self.assign id value).toMap = Function.update self.toMap id (some value) ∧
      (self.assign id value).Valid := by
  have usedAfter : (self.assign id value).usedIds = insert id self.usedIds := by
    ext other
    by_cases same : other = id
    · subst same
      simp [assign, usedIds, inRange]
    · simp [assign, usedIds, same]
  refine ⟨?_, ⟨valid.capLe, ?_, ?_, ?_⟩⟩
  · funext other
    by_cases same : other = id
    · subst same
      simp [toMap, get, isAssigned, assign, inRange]
    · simp [toMap, get, isAssigned, assign, same]
  · intro other high
    have : other ≠ id := by omega
    simp [assign, this, valid.noHighBits other high]
  · intro other bit
    by_cases same : other = id
    · subst same
      simp [assign]
    · simp only [assign, Bitmap.get_set, same, if_false] at bit ⊢
      simpa [Function.update_noteq same] using valid.initialized other bit
  · rw [usedAfter, Finset.card_insert_of_not_mem (by simp [usedIds, free]), ← valid.countEq]
    rfl

/-- Clearing an assigned id: the map loses it, and the invariant holds. -/
theorem clear_refines {id : Nat} (assigned : self.isAssigned id = true) :
    (self.clear id).toMap = Function.update self.toMap id none ∧ (self.clear id).Valid := by
  simp only [isAssigned, Bool.and_eq_true, decide_eq_true_eq] at assigned
  refine ⟨?_, ⟨valid.capLe, ?_, ?_, ?_⟩⟩
  · funext other
    by_cases same : other = id
    · subst same
      simp [toMap, get, isAssigned, clear]
    · simp [toMap, get, isAssigned, clear, same]
  · intro other high
    simp only [clear, Bitmap.get_set]
    split_ifs
    · rfl
    · exact valid.noHighBits other high
  · intro other bit
    by_cases same : other = id
    · subst same
      simp [clear] at bit
    · simp only [clear, Bitmap.get_set, same, if_false] at bit
      exact valid.initialized other bit
  · have usedAfter : (self.clear id).usedIds = self.usedIds.erase id := by
      ext other
      by_cases same : other = id
      · subst same
        simp [usedIds, clear]
      · simp [usedIds, clear, same]
    rw [usedAfter, Finset.card_erase_of_mem (by simp [usedIds, assigned.1, assigned.2]),
      ← valid.countEq]
    rfl

/-- Writing over an assigned id: the map takes the new object, and the invariant
holds. -/
theorem replace_refines {id : Nat} (assigned : self.isAssigned id = true) (value : α) :
    ({ self with objects := Function.update self.objects id (some value) } :
        FlattenObjects α CAP).toMap = Function.update self.toMap id (some value) ∧
      ({ self with objects := Function.update self.objects id (some value) } :
        FlattenObjects α CAP).Valid := by
  refine ⟨?_, ⟨valid.capLe, valid.noHighBits, fun other bit => ?_, valid.countEq⟩⟩
  · funext other
    by_cases same : other = id
    · subst same
      simpa [toMap, get, isAssigned] using assigned
    · simp [toMap, get, isAssigned, same]
  · by_cases same : other = id
    · subst same
      simp
    · simpa [Function.update_noteq same] using valid.initialized other bit

/-- `first_false_index` finds the least free id below `CAP` when there is one, and
otherwise nothing `add` accepts. -/
theorem add_eq (value : α) :
    self.add value =
      match (List.range CAP).find? fun id => (self.toMap id).isNone with
      | some id => (self.assign id value, .ok id)
      | none => (self, .error value) := by
  have ranges : List.range 1024 = List.range CAP ++ List.range' CAP (1024 - CAP) := by
    have joined := List.range'_append_1 0 CAP (1024 - CAP)
    rw [Nat.zero_add, Nat.sub_add_cancel valid.capLe] at joined
    rw [List.range_eq_range', List.range_eq_range', joined]
  have agree : ∀ id ∈ List.range CAP, (!self.idBitmap.get id) = (self.toMap id).isNone := by
    intro id _
    rw [← toMap_isSome valid]
    cases self.toMap id <;> rfl
  unfold add Bitmap.firstFalseIndex
  rw [ranges, List.find?_append, find?_congr_of_mem agree]
  cases found : (List.range CAP).find? fun id => (self.toMap id).isNone with
  | some id =>
    simp [List.mem_range.mp (List.mem_of_find?_eq_some found)]
  | none =>
    cases beyond : (List.range' CAP (1024 - CAP)).find? fun index => !self.idBitmap.get index with
    | none => rfl
    | some id =>
      have high : CAP ≤ id := (List.mem_range'_1.mp (List.mem_of_find?_eq_some beyond)).1
      simp [Nat.not_lt_of_le high]

end Valid

/-- The step lemma: each operation on a valid container returns what the
specified operation returns on its map, leaves the map the specified one leaves,
and keeps the invariant. -/
theorem step_refines {self : FlattenObjects α CAP} (valid : self.Valid) (op : ObjectOp α) :
    (self.step op).2 = (specStep CAP self.toMap op).2 ∧
      (self.step op).1.toMap = (specStep CAP self.toMap op).1 ∧ (self.step op).1.Valid := by
  cases op with
  | add value =>
    simp only [step, add_eq valid, specStep]
    cases found : (List.range CAP).find? fun id => (self.toMap id).isNone with
    | some id =>
      have inRange := List.mem_range.mp (List.mem_of_find?_eq_some found)
      have free : self.idBitmap.get id = false := by
        simpa [← toMap_isSome valid, Option.isNone_iff_eq_none] using List.find?_some found
      exact ⟨rfl, assign_refines valid inRange free value⟩
    | none => exact ⟨rfl, rfl, valid⟩
  | addAt id value =>
    simp only [step, addAt, specStep, isAssigned_eq valid, ← Option.not_isSome]
    by_cases inRange : id < CAP
    · cases assigned : (self.toMap id).isSome
      · have free : self.idBitmap.get id = false := by rw [← toMap_isSome valid, assigned]
        simpa [inRange, Nat.not_le_of_lt inRange] using assign_refines valid inRange free value
      · simpa [inRange] using valid
    · simpa [inRange, Nat.le_of_not_lt inRange] using valid
  | addOrReplaceAt id value =>
    simp only [step, addOrReplaceAt, specStep]
    by_cases high : CAP ≤ id
    · simpa [high] using valid
    · have inRange := Nat.lt_of_not_le high
      cases assigned : self.isAssigned id
      · have free : self.idBitmap.get id = false := by
          simpa [isAssigned, inRange] using assigned
        simpa [high, toMap_eq_none assigned] using assign_refines valid inRange free value
      · obtain ⟨old, held, stored⟩ := toMap_eq_some valid assigned
        simpa [high, held, stored] using replace_refines valid assigned value
  | remove id =>
    simp only [step, remove, specStep]
    cases assigned : self.isAssigned id
    · simpa [toMap_eq_none assigned] using valid
    · obtain ⟨old, held, stored⟩ := toMap_eq_some valid assigned
      simpa [held, stored] using clear_refines valid assigned
  | get id => exact ⟨rfl, rfl, valid⟩
  | getMut id => exact ⟨rfl, rfl, valid⟩
  | isAssigned id => exact ⟨by simp [step, specStep, isAssigned_eq valid], rfl, valid⟩
  | count => exact ⟨by simp [step, specStep, valid.countEq, usedIds_eq valid], rfl, valid⟩

/-- The run lemma: along every sequence of operations the container behaves as
the specified map and stays valid. -/
theorem run_refines :
    ∀ (ops : List (ObjectOp α)) {self : FlattenObjects α CAP}, self.Valid →
      (self.run ops).2 = (specRun CAP self.toMap ops).2 ∧
        (self.run ops).1.toMap = (specRun CAP self.toMap ops).1 ∧ (self.run ops).1.Valid
  | [], _, valid => ⟨rfl, rfl, valid⟩
  | op :: ops, self, valid => by
    obtain ⟨result, map, stepValid⟩ := step_refines valid op
    obtain ⟨results, finalMap, finalValid⟩ := run_refines ops stepValid
    simp only [run, specRun, result, ← map]
    exact ⟨by rw [results], finalMap, finalValid⟩

theorem new_valid (capLe : CAP ≤ 1024) :
    ∃ start : FlattenObjects α CAP, new = some start ∧ start.Valid ∧ start.toMap = fun _ => none :=
  ⟨⟨fun _ => none, Bitmap.zeroed, 0⟩, by simp [new, capLe],
    ⟨capLe, fun _ _ => rfl, (fun _ bit => by cases bit), by simp [usedIds]⟩,
    by funext id; simp [toMap, get, isAssigned]⟩

end FlattenObjects

/-- For every `CAP ≤ 1024` and every sequence of operations from
`FlattenObjects::new()`, the container returns what the specified partial map
returns and stands for the map the specified operations build; afterwards it is
valid (no bit at or above `CAP` is set, and the count is the number of ids in
use), its count is at most `CAP`, and it is positive whenever an id is assigned,
so a `remove` never underflows it. -/
theorem flattenObjects_refines {α : Type} {CAP : Nat} (capLe : CAP ≤ 1024) (ops : List (ObjectOp α)) :
    ∃ start : FlattenObjects α CAP, FlattenObjects.new = some start ∧
      (start.run ops).2 = (specRun CAP (fun _ => none) ops).2 ∧
      (start.run ops).1.toMap = (specRun CAP (fun _ => none) ops).1 ∧
      (start.run ops).1.Valid ∧ (start.run ops).1.count ≤ CAP ∧
      ∀ id, (start.run ops).1.isAssigned id = true → 0 < (start.run ops).1.count := by
  obtain ⟨start, created, valid, empty⟩ := FlattenObjects.new_valid (α := α) capLe
  obtain ⟨results, map, finalValid⟩ := FlattenObjects.run_refines ops valid
  refine ⟨start, created, empty ▸ results, empty ▸ map, finalValid,
    FlattenObjects.count_le finalValid, fun id assigned => ?_⟩
  rw [finalValid.countEq]
  exact Finset.card_pos.mpr ⟨id, by
    simpa [FlattenObjects.usedIds, FlattenObjects.isAssigned] using assigned⟩

theorem flattenObjects_refines_docExample :
    let ops : List (ObjectOp Nat) := [.add 23, .add 42, .add 23, .add 42, .remove 1, .add 42]
    ∃ start : FlattenObjects Nat 3, FlattenObjects.new = some start ∧
      (start.run ops).2 = (specRun 3 (fun _ => none) ops).2 ∧
      (start.run ops).1.toMap = (specRun 3 (fun _ => none) ops).1 ∧
      (start.run ops).1.Valid ∧ (start.run ops).1.count ≤ 3 ∧
      ∀ id, (start.run ops).1.isAssigned id = true → 0 < (start.run ops).1.count :=
  flattenObjects_refines (by decide) _

end ThCore

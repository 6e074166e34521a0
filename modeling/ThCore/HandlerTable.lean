import Mathlib.Logic.Function.Basic
import Mathlib.Data.UInt

/-!
# A lock-free table of event handlers

`HandlerTable<N>` of `vendor/handler_table`: one `AtomicUsize` per slot, 0 when
the slot is empty and the handler's function pointer otherwise.  Each call makes
exactly one atomic access to its slot (`compare_exchange` to register, `swap` to
unregister, `load` to handle), so an interleaving of calls from any number of
cores is a sequence of steps, one per call, and a run over such a sequence
covers every interleaving.

Over the faithful table stands the table as a partial map from slots to
handlers, whose operations are written from the specification's words
(`specStep`).  `step_refines` shows each call of the table is that operation on
the map its slots stand for, and `replay_run` shows, over every run, that the
successful registrations and unregistrations of each slot alternate (install
`h`, remove `h`, install `h'`, ...) from what the slot held to what it holds.
`handlerTable_linearizable` puts the two together for runs from
`HandlerTable::new()`.
-/

namespace ThCore

/-! ## Handlers and slots -/

namespace HandlerTable

/-- `Handler` (`fn()`), as the `usize` the table stores: a function pointer is
never null. -/
structure Handler where
  addr : UInt64
  nonzero : addr ≠ 0
  deriving DecidableEq

/-- The handler a slot value stands for: `transmute::<usize, fn()>` behind the
`!= 0` test. -/
def slotHandler (value : UInt64) : Option Handler :=
  if empty : value = 0 then none else some ⟨value, empty⟩

@[simp] theorem slotHandler_zero : slotHandler 0 = none :=
  rfl

@[simp] theorem slotHandler_addr (handler : Handler) : slotHandler handler.addr = some handler := by
  simp [slotHandler, handler.nonzero]

theorem slotHandler_eq_none {value : UInt64} : slotHandler value = none ↔ value = 0 := by
  by_cases empty : value = 0 <;> simp [slotHandler, empty]

/-- `AtomicUsize::compare_exchange(current, new)`: the value afterwards, and `Ok`
of the old value when it matched. -/
def compareExchange (value current new : UInt64) : UInt64 × Except UInt64 UInt64 :=
  if value = current then (new, .ok value) else (value, .error value)

end HandlerTable

/-- `HandlerTable<N>`: the slots' values. -/
structure HandlerTable (N : Nat) where
  handlers : Fin N → UInt64

namespace HandlerTable

variable {N : Nat}

/-- `HandlerTable::new`. -/
def new (N : Nat) : HandlerTable N :=
  ⟨fun _ => 0⟩

/-- `HandlerTable::register_handler`. -/
def registerHandler (table : HandlerTable N) (idx : Nat) (handler : Handler) :
    HandlerTable N × Bool :=
  if out : N ≤ idx then (table, false)
  else
    let slot : Fin N := ⟨idx, Nat.lt_of_not_le out⟩
    let exchanged := compareExchange (table.handlers slot) 0 handler.addr
    (⟨Function.update table.handlers slot exchanged.1⟩, exchanged.2.isOk)

/-- `HandlerTable::unregister_handler`: `swap(0)`, then the old handler if any. -/
def unregisterHandler (table : HandlerTable N) (idx : Nat) : HandlerTable N × Option Handler :=
  if out : N ≤ idx then (table, none)
  else
    let slot : Fin N := ⟨idx, Nat.lt_of_not_le out⟩
    (⟨Function.update table.handlers slot 0⟩, slotHandler (table.handlers slot))

/-- `HandlerTable::handle`: the handler it invokes; it returns `true` exactly when
there is one. -/
def handle (table : HandlerTable N) (idx : Nat) : Option Handler :=
  if out : N ≤ idx then none else slotHandler (table.handlers ⟨idx, Nat.lt_of_not_le out⟩)

/-- The handler each slot holds. -/
def slots (table : HandlerTable N) (slot : Fin N) : Option Handler :=
  slotHandler (table.handlers slot)

/-! ## Calls and runs -/

/-- One call on the table. -/
inductive TableOp where
  | registerHandler (idx : Nat) (handler : Handler)
  | unregisterHandler (idx : Nat)
  | handle (idx : Nat)

/-- What a call returns (for `handle`, the handler it invoked). -/
inductive TableResult where
  | registered (ok : Bool)
  | unregistered (handler : Option Handler)
  | handled (invoked : Option Handler)
  deriving DecidableEq

/-- One call, as one atomic step. -/
def step (table : HandlerTable N) : TableOp → HandlerTable N × TableResult
  | .registerHandler idx handler =>
    let result := table.registerHandler idx handler
    (result.1, .registered result.2)
  | .unregisterHandler idx =>
    let result := table.unregisterHandler idx
    (result.1, .unregistered result.2)
  | .handle idx => (table, .handled (table.handle idx))

/-- A sequence of calls: the table afterwards and each call's result. -/
def run (table : HandlerTable N) : List TableOp → HandlerTable N × List TableResult
  | [] => (table, [])
  | op :: ops =>
    let first := table.step op
    let rest := first.1.run ops
    (rest.1, first.2 :: rest.2)

/-! ## The table as a partial map -/

/-- The calls as the specification words them, on the map of installed handlers:
registering succeeds exactly on an empty slot in range and never overwrites;
unregistering returns the installed handler and empties the slot; handling
invokes the installed handler, or nothing. -/
def specStep (installed : Fin N → Option Handler) :
    TableOp → (Fin N → Option Handler) × TableResult
  | .registerHandler idx handler =>
    if inRange : idx < N then
      if installed ⟨idx, inRange⟩ = none then
        (Function.update installed ⟨idx, inRange⟩ (some handler), .registered true)
      else (installed, .registered false)
    else (installed, .registered false)
  | .unregisterHandler idx =>
    if inRange : idx < N then
      (Function.update installed ⟨idx, inRange⟩ none, .unregistered (installed ⟨idx, inRange⟩))
    else (installed, .unregistered none)
  | .handle idx =>
    (installed, .handled (if inRange : idx < N then installed ⟨idx, inRange⟩ else none))

theorem slots_update (table : HandlerTable N) (slot : Fin N) (value : UInt64) :
    (mk (Function.update table.handlers slot value)).slots =
      Function.update table.slots slot (slotHandler value) := by
  funext other
  by_cases same : other = slot
  · subst same
    simp [slots]
  · simp [slots, same]

/-- Registering at one index leaves every other slot as it was. -/
theorem registerHandler_slots_of_ne (table : HandlerTable N) {idx : Nat} (handler : Handler)
    {slot : Fin N} (other : slot.val ≠ idx) :
    (table.registerHandler idx handler).1.slots slot = table.slots slot := by
  unfold registerHandler
  split
  · rfl
  · simp only [slots]
    rw [Function.update_noteq (Fin.ne_of_val_ne other)]

/-- Registering on an empty slot succeeds and installs the handler. -/
theorem registerHandler_empty (table : HandlerTable N) {slot : Fin N} (handler : Handler)
    (empty : table.slots slot = none) :
    (table.registerHandler slot handler).2 = true ∧
      (table.registerHandler slot handler).1.slots slot = some handler := by
  have zero : table.handlers slot = 0 := slotHandler_eq_none.mp empty
  simp [registerHandler, Nat.not_le_of_lt slot.isLt, compareExchange, zero, slots, Except.isOk,
    Except.toBool]

/-- Registering on an occupied slot fails and changes nothing. -/
theorem registerHandler_occupied (table : HandlerTable N) {slot : Fin N} (handler : Handler)
    (occupied : table.slots slot ≠ none) : table.registerHandler slot handler = (table, false) := by
  have nonzero : table.handlers slot ≠ 0 := fun zero => occupied (slotHandler_eq_none.mpr zero)
  simp [registerHandler, Nat.not_le_of_lt slot.isLt, compareExchange, nonzero, Except.isOk,
    Except.toBool]

/-- Each call of the table is the specified operation on the map its slots stand
for. -/
theorem step_refines (table : HandlerTable N) (op : TableOp) :
    (table.step op).2 = (specStep table.slots op).2 ∧
      (table.step op).1.slots = (specStep table.slots op).1 := by
  cases op with
  | registerHandler idx handler =>
    by_cases inRange : idx < N
    · have out : ¬N ≤ idx := Nat.not_le_of_lt inRange
      by_cases empty : table.handlers ⟨idx, inRange⟩ = 0
      · simp [step, registerHandler, specStep, inRange, out,
          compareExchange, empty, slots_update, slots, Except.isOk, Except.toBool]
      · have occupied : table.slots ⟨idx, inRange⟩ ≠ none :=
          fun none => empty (slotHandler_eq_none.mp none)
        simp [step, registerHandler, specStep, inRange, out,
          compareExchange, empty, occupied, slots_update, Except.isOk, Except.toBool]
    · simp [step, registerHandler, specStep, inRange,
        Nat.le_of_not_lt inRange]
  | unregisterHandler idx =>
    by_cases inRange : idx < N
    · simp [step, unregisterHandler, specStep, inRange,
        Nat.not_le_of_lt inRange, slots_update, slots]
    · simp [step, unregisterHandler, specStep, inRange,
        Nat.le_of_not_lt inRange]
  | handle idx =>
    by_cases inRange : idx < N
    · simp [step, handle, specStep, inRange, Nat.not_le_of_lt inRange,
        slots]
    · simp [step, handle, specStep, inRange, Nat.le_of_not_lt inRange]

/-! ## The history of a slot -/

/-- A successful registration or unregistration. -/
inductive SlotEvent where
  | installed (handler : Handler)
  | removed (handler : Handler)

/-- What a call and its result add to the history of slot `idx`. -/
def callEvent (idx : Nat) : TableOp × TableResult → List SlotEvent
  | (.registerHandler i handler, .registered true) => if i = idx then [.installed handler] else []
  | (.unregisterHandler i, .unregistered (some handler)) =>
    if i = idx then [.removed handler] else []
  | _ => []

/-- The successful registrations and unregistrations of slot `idx`, in order. -/
def slotEvents (idx : Nat) (calls : List (TableOp × TableResult)) : List SlotEvent :=
  calls.flatMap (callEvent idx)

/-- Replays a slot's events from what it holds: an install needs an empty slot,
a removal returns exactly the installed handler.  The result is the handler
left installed, or `none` when the events break that alternation. -/
def replay : Option Handler → List SlotEvent → Option (Option Handler)
  | current, [] => some current
  | none, .installed handler :: rest => replay (some handler) rest
  | some installed, .removed handler :: rest =>
    if handler = installed then replay none rest else none
  | _, _ => none

/-- The step lemma for one slot, on the map: a call adds to the slot's history
exactly the event that takes its old content to its new one. -/
theorem replay_specStep (installed : Fin N → Option Handler) (op : TableOp) (slot : Fin N)
    (events : List SlotEvent) :
    replay (installed slot) (callEvent slot (op, (specStep installed op).2) ++ events) =
      replay ((specStep installed op).1 slot) events := by
  obtain ⟨s, sLt⟩ := slot
  cases op with
  | registerHandler idx handler =>
    by_cases inRange : idx < N
    · by_cases empty : installed ⟨idx, inRange⟩ = none
      · by_cases same : idx = s
        · subst same
          simp [specStep, inRange, empty, callEvent, replay]
        · have other : (⟨s, sLt⟩ : Fin N) ≠ ⟨idx, inRange⟩ := fun eq => same (Fin.mk.inj eq).symm
          simp [specStep, inRange, empty, callEvent, same, other]
      · simp [specStep, inRange, empty, callEvent]
    · simp [specStep, inRange, callEvent]
  | unregisterHandler idx =>
    by_cases inRange : idx < N
    · by_cases same : idx = s
      · subst same
        cases held : installed ⟨idx, inRange⟩ <;> simp [specStep, inRange, held, callEvent, replay]
      · have other : (⟨s, sLt⟩ : Fin N) ≠ ⟨idx, inRange⟩ := fun eq => same (Fin.mk.inj eq).symm
        cases held : installed ⟨idx, inRange⟩ <;>
          simp [specStep, inRange, held, callEvent, same, other]
    · simp [specStep, inRange, callEvent]
  | handle idx => simp [specStep, callEvent]

/-- The run lemma: along any run, each slot's history replays from what the slot
held to what it holds. -/
theorem replay_run (ops : List TableOp) :
    ∀ (table : HandlerTable N) (slot : Fin N),
      replay (table.slots slot) (slotEvents slot (ops.zip (table.run ops).2)) =
        some ((table.run ops).1.slots slot) := by
  induction ops with
  | nil => intro table slot; simp [slotEvents, replay, run]
  | cons op ops inductionHypothesis =>
    intro table slot
    obtain ⟨result, slotsAfter⟩ := step_refines table op
    have history := replay_specStep table.slots op slot
      (slotEvents slot (ops.zip ((table.step op).1.run ops).2))
    rw [← result, ← slotsAfter] at history
    simp only [run, List.zip_cons_cons, slotEvents, List.flatMap_cons] at history ⊢
    rw [history]
    exact inductionHypothesis _ slot

/-- `HandlerTable<N>` behaves as the specified map, call by call, and over every
run from `HandlerTable::new()` the successful registrations and unregistrations
of each slot alternate, each removal returning the handler its install put there,
and end in the handler the slot holds. -/
theorem handlerTable_linearizable (N : Nat) :
    (∀ (table : HandlerTable N) (op : TableOp),
      (table.step op).2 = (specStep table.slots op).2 ∧
        (table.step op).1.slots = (specStep table.slots op).1) ∧
    ∀ (ops : List TableOp) (slot : Fin N),
      replay none (slotEvents slot (ops.zip ((new N).run ops).2)) =
        some (((new N).run ops).1.slots slot) :=
  ⟨step_refines, fun ops slot => replay_run ops (new N) slot⟩

end HandlerTable

end ThCore

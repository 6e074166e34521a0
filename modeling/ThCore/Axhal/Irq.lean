import ThCore.HandlerTable

/-!
# IRQ registration and dispatch on the LoongArch64 QEMU `virt` platform

`register_handler` and `dispatch_irq` of
`axhal/src/platform/loongarch64_qemu_virt/irq.rs`.  The platform routes two IRQ
numbers through `with_cause!`, which panics on any other: the timer
(`TIMER_IRQ_NUM`, 11), whose handler lives in a `LazyInit`, and the external
controller (`EXT_IRQ_NUM`, 2), which goes through the general table
`IRQ_HANDLER_TABLE` of `axhal::irq`.

`register_handler_common` and `dispatch_irq_common` (in `axhal/src/irq.rs`, not
among the sources) are modelled as the table operation at the number they are
given: registration at `irq_num` (its `set_enable` acts on the timer line only on
this platform) and `handle` at the number passed.  The platform passes `irq_num`
to the first and the literal 0 to the second.

Two views of `register_handler` are given.  `registerHandler` is one call on its
own.  `registerStep` cuts the call at its atomic accesses (the timer path reads
`is_inited` and later runs `init_once`, the external path makes one
`compare_exchange`), so that `Cores.run` interleaves calls from any number of
cores; `registerStep_alone` shows one call stepped on its own is
`registerHandler`.  The results: after any run, `dispatch_irq(EXT_IRQ_NUM)`
invokes nothing, registered or not, and a timer dispatch before registration
panics (`dispatchIrq_ext_silent`); over every interleaving at most one call per IRQ
number returns `true` (`run_installsAtMostOnce`), but two racing timer
registrations can make one of them panic (`timerRace_panics`).
-/

namespace ThCore.Axhal

open HandlerTable (Handler)

/-! ## `LazyInit` -/

/-- `lazyinit::LazyInit<T>`: the value once `init_once` has run. -/
structure LazyInit (α : Type) where
  value : Option α
  deriving DecidableEq

namespace LazyInit

variable {α : Type}

/-- `LazyInit::new`. -/
def new : LazyInit α :=
  ⟨none⟩

/-- `LazyInit::is_inited`. -/
def isInited (cell : LazyInit α) : Bool :=
  cell.value.isSome

/-- `LazyInit::init_once`, or `none` where it panics ("Already initialized"). -/
def initOnce (cell : LazyInit α) (data : α) : Option (LazyInit α) :=
  if cell.isInited then none else some ⟨some data⟩

/-- `*cell`, or `none` where it panics ("Use uninitialized value"). -/
def get (cell : LazyInit α) : Option α :=
  cell.value

end LazyInit

/-! ## The platform -/

/-- `MAX_IRQ_COUNT`. -/
def MAX_IRQ_COUNT : Nat := 256

/-- `EXT_IRQ_NUM`. -/
def EXT_IRQ_NUM : Nat := 2

/-- `TIMER_IRQ_NUM`. -/
def TIMER_IRQ_NUM : Nat := 11

theorem ext_ne_timer : EXT_IRQ_NUM ≠ TIMER_IRQ_NUM := by
  decide

/-- `with_cause!`: the timer arm, the external arm, or `none` where it panics
("invalid trap cause"). -/
def withCause {α : Type} (cause : Nat) (timerOp extOp : Option α) : Option α :=
  if cause = TIMER_IRQ_NUM then timerOp else if cause = EXT_IRQ_NUM then extOp else none

/-- The IRQ state: `TIMER_HANDLER` and `IRQ_HANDLER_TABLE`. -/
structure IrqState where
  timerHandler : LazyInit Handler
  table : HandlerTable MAX_IRQ_COUNT

/-- At boot: no timer handler, an empty table. -/
def IrqState.boot : IrqState :=
  ⟨LazyInit.new, HandlerTable.new MAX_IRQ_COUNT⟩

/-- `register_handler_common`: registration in `IRQ_HANDLER_TABLE` at `irq_num`. -/
def registerHandlerCommon (table : HandlerTable MAX_IRQ_COUNT) (irqNum : Nat) (handler : Handler) :
    HandlerTable MAX_IRQ_COUNT × Bool :=
  table.registerHandler irqNum handler

/-- `dispatch_irq_common`: `IRQ_HANDLER_TABLE.handle(irq_num)`, the handler it
invokes. -/
def dispatchIrqCommon (table : HandlerTable MAX_IRQ_COUNT) (irqNum : Nat) : Option Handler :=
  table.handle irqNum

/-- `register_handler`, one call on its own; `none` where it panics. -/
def registerHandler (st : IrqState) (irqNum : Nat) (handler : Handler) :
    Option (IrqState × Bool) :=
  withCause irqNum
    (if !st.timerHandler.isInited then
      (st.timerHandler.initOnce handler).map fun cell => ({ st with timerHandler := cell }, true)
    else some (st, false))
    (let registered := registerHandlerCommon st.table irqNum handler
     some ({ st with table := registered.1 }, registered.2))

/-- What `dispatch_irq` does: clear the timer's pending bit, invoke a handler. -/
inductive IrqEvent where
  | clearTimerInterrupt
  | invoke (handler : Handler)
  deriving DecidableEq

/-- `dispatch_irq`: its events, or `none` where it panics. -/
def dispatchIrq (st : IrqState) (irqNum : Nat) : Option (List IrqEvent) :=
  withCause irqNum
    (st.timerHandler.get.map fun handler => [.clearTimerInterrupt, .invoke handler])
    (some ((dispatchIrqCommon st.table 0).toList.map .invoke))

/-! ## Runs of calls -/

/-- A call on the platform. -/
inductive IrqCall where
  | registerHandler (irqNum : Nat) (handler : Handler)
  | dispatchIrq (irqNum : Nat)

/-- What a call returned. -/
inductive IrqOutcome where
  | registered (ok : Bool)
  | dispatched (events : List IrqEvent)
  deriving DecidableEq

namespace IrqState

/-- One call; `none` where it panics. -/
def step (st : IrqState) : IrqCall → Option (IrqState × IrqOutcome)
  | .registerHandler irqNum handler =>
    (registerHandler st irqNum handler).map fun result => (result.1, .registered result.2)
  | .dispatchIrq irqNum => (dispatchIrq st irqNum).map fun events => (st, .dispatched events)

/-- A run of calls; `none` where one of them panics. -/
def run (st : IrqState) : List IrqCall → Option (IrqState × List IrqOutcome)
  | [] => some (st, [])
  | call :: calls => do
    let first ← st.step call
    let rest ← first.1.run calls
    pure (rest.1, first.2 :: rest.2)

end IrqState

/-! ## External interrupts are never delivered -/

/-- The slot `dispatch_irq(EXT_IRQ_NUM)` reads: `dispatch_irq_common(0)`. -/
def extDispatchSlot : Fin MAX_IRQ_COUNT :=
  ⟨0, by decide⟩

/-- `dispatch_irq(EXT_IRQ_NUM)` invokes what that slot holds. -/
theorem dispatchIrq_ext (st : IrqState) :
    dispatchIrq st EXT_IRQ_NUM = some ((st.table.slots extDispatchSlot).toList.map .invoke) :=
  rfl

/-- `register_handler` never touches the slot `dispatch_irq` reads for external
interrupts. -/
theorem registerHandler_extDispatchSlot {st st' : IrqState} {irqNum : Nat} {handler : Handler}
    {ok : Bool} (registered : registerHandler st irqNum handler = some (st', ok)) :
    st'.table.slots extDispatchSlot = st.table.slots extDispatchSlot := by
  by_cases timer : irqNum = TIMER_IRQ_NUM
  · simp only [registerHandler, withCause, timer, if_true] at registered
    cases inited : st.timerHandler.isInited <;>
      simp [inited, LazyInit.initOnce] at registered <;> rw [← registered.1]
  · by_cases ext : irqNum = EXT_IRQ_NUM
    · subst ext
      simp only [registerHandler, withCause, if_neg ext_ne_timer, if_true, Option.some.injEq,
        Prod.mk.injEq] at registered
      rw [← registered.1]
      exact HandlerTable.registerHandler_slots_of_ne _ _ (by decide)
    · simp [registerHandler, withCause, timer, ext] at registered

/-- The step lemma: no call touches the slot `dispatch_irq` reads for external
interrupts. -/
theorem step_extDispatchSlot {st : IrqState} {call : IrqCall} {result : IrqState × IrqOutcome}
    (stepped : st.step call = some result) :
    result.1.table.slots extDispatchSlot = st.table.slots extDispatchSlot := by
  cases call with
  | registerHandler irqNum handler =>
    simp only [IrqState.step, Option.map_eq_some'] at stepped
    obtain ⟨registered, called, rfl⟩ := stepped
    exact registerHandler_extDispatchSlot called
  | dispatchIrq irqNum =>
    simp only [IrqState.step, Option.map_eq_some'] at stepped
    obtain ⟨events, -, rfl⟩ := stepped
    rfl

/-- The run lemma: no run of calls fills the slot `dispatch_irq` reads for
external interrupts. -/
theorem run_extDispatchSlot :
    ∀ (calls : List IrqCall) {st : IrqState} {result : IrqState × List IrqOutcome},
      st.table.slots extDispatchSlot = none → st.run calls = some result →
        result.1.table.slots extDispatchSlot = none
  | [], _, _, empty, ran => by
    cases ran
    exact empty
  | call :: calls, st, _, empty, ran => by
    simp only [IrqState.run, Option.bind_eq_bind, Option.bind_eq_some, Option.pure_def,
      Option.some.injEq] at ran
    obtain ⟨first, stepped, rest, ranRest, rfl⟩ := ran
    exact @run_extDispatchSlot calls first.1 rest
      (by rw [step_extDispatchSlot stepped]; exact empty) ranRest

/-- After any run of `register_handler` and `dispatch_irq` calls from boot,
`dispatch_irq(EXT_IRQ_NUM)` invokes nothing, whatever was registered for
`EXT_IRQ_NUM`; and `dispatch_irq(TIMER_IRQ_NUM)` before any timer registration
panics. -/
theorem dispatchIrq_ext_silent :
    (∀ (calls : List IrqCall) (st : IrqState) (outcomes : List IrqOutcome),
      IrqState.boot.run calls = some (st, outcomes) → dispatchIrq st EXT_IRQ_NUM = some []) ∧
    dispatchIrq IrqState.boot TIMER_IRQ_NUM = none := by
  refine ⟨fun calls st outcomes ran => ?_, rfl⟩
  rw [dispatchIrq_ext, @run_extDispatchSlot calls IrqState.boot (st, outcomes) rfl ran]
  rfl

/-- A handler at address `0x1000`. -/
def sampleHandler : Handler :=
  ⟨0x1000, by decide⟩

theorem dispatchIrq_ext_silent_registered :
    ∃ st, IrqState.boot.run [.registerHandler EXT_IRQ_NUM sampleHandler] =
        some (st, [.registered true]) ∧ dispatchIrq st EXT_IRQ_NUM = some [] :=
  ⟨_, rfl, dispatchIrq_ext_silent.1 [.registerHandler EXT_IRQ_NUM sampleHandler] _
    [.registered true] rfl⟩

/-! ## Registrations racing on several cores -/

/-- Where a `register_handler` call stands: about to start, on the timer path
between `is_inited()` (which read `false`) and `init_once`, returned, or
panicked. -/
inductive RegisterPc where
  | start
  | timerChecked
  | returned (ok : Bool)
  | panicked
  deriving DecidableEq

/-- A `register_handler(irq_num, handler)` call in progress on a core. -/
structure RegisterCall where
  irqNum : Nat
  handler : Handler
  pc : RegisterPc

/-- The slot `register_handler` fills for external interrupts. -/
def extSlot : Fin MAX_IRQ_COUNT :=
  ⟨EXT_IRQ_NUM, by decide⟩

/-- One atomic step of a `register_handler` call: the `is_inited` load or the
`compare_exchange` of the table, then the timer path's `init_once`. -/
def registerStep (st : IrqState) (call : RegisterCall) : IrqState × RegisterPc :=
  match call.pc with
  | .start =>
    let stepped := withCause call.irqNum
      (some (st, if !st.timerHandler.isInited then .timerChecked else .returned false))
      (let registered := registerHandlerCommon st.table call.irqNum call.handler
       some ({ st with table := registered.1 }, .returned registered.2))
    stepped.getD (st, .panicked)
  | .timerChecked =>
    match st.timerHandler.initOnce call.handler with
    | some cell => ({ st with timerHandler := cell }, .returned true)
    | none => (st, .panicked)
  | pc => (st, pc)

/-- The calls in progress on the cores and the shared state. -/
structure Cores where
  state : IrqState
  calls : List RegisterCall

namespace Cores

/-- Calls issued from boot, each at its start. -/
def start (requests : List (Nat × Handler)) : Cores :=
  ⟨IrqState.boot, requests.map fun request => ⟨request.1, request.2, .start⟩⟩

/-- The call on `core` takes one step. -/
def step (sys : Cores) (core : Nat) : Cores :=
  match sys.calls[core]? with
  | some call =>
    let stepped := registerStep sys.state call
    ⟨stepped.1, sys.calls.set core { call with pc := stepped.2 }⟩
  | none => sys

/-- An interleaving: the cores that step, in order. -/
def run (sys : Cores) : List Nat → Cores
  | [] => sys
  | core :: schedule => (sys.step core).run schedule

end Cores

/-- Stepped on its own to the end, a call is `register_handler`. -/
theorem registerStep_alone (st : IrqState) (irqNum : Nat) (handler : Handler) :
    let alone := (Cores.mk st [⟨irqNum, handler, .start⟩]).run [0, 0]
    match registerHandler st irqNum handler with
    | some (st', ok) => alone.state = st' ∧ alone.calls = [⟨irqNum, handler, .returned ok⟩]
    | none => alone.calls = [⟨irqNum, handler, .panicked⟩] := by
  by_cases timer : irqNum = TIMER_IRQ_NUM
  · subst timer
    cases inited : st.timerHandler.isInited <;>
      simp [registerHandler, withCause, Cores.run, Cores.step, registerStep, inited,
        LazyInit.initOnce]
  · by_cases ext : irqNum = EXT_IRQ_NUM
    · subst ext
      simp [registerHandler, withCause, Cores.run, Cores.step, registerStep, ext_ne_timer]
    · simp [registerHandler, withCause, Cores.run, Cores.step, registerStep, timer, ext]

/-- Everything one step of a call can do: change nothing (a check, a failed
`compare_exchange`, a panic, or a finished call), install the timer handler with
`init_once`, or install the external handler with `compare_exchange`.  Only a
timer call stops between its check and `init_once`. -/
theorem registerStep_cases (st : IrqState) (call : RegisterCall) :
    ((registerStep st call).1 = st ∧
        ((registerStep st call).2 = .returned true → call.pc = .returned true) ∧
        ((registerStep st call).2 = .timerChecked → call.irqNum = TIMER_IRQ_NUM)) ∨
      (call.pc = .timerChecked ∧ st.timerHandler.isInited = false ∧
        (registerStep st call).2 = .returned true ∧
        (registerStep st call).1 = { st with timerHandler := ⟨some call.handler⟩ }) ∨
      (call.pc = .start ∧ call.irqNum = EXT_IRQ_NUM ∧ st.table.slots extSlot = none ∧
        (registerStep st call).2 = .returned true ∧
        (registerStep st call).1.timerHandler = st.timerHandler ∧
        (registerStep st call).1.table.slots extSlot ≠ none) := by
  rcases call with ⟨irqNum, handler, pc⟩
  cases pc with
  | start =>
    by_cases timer : irqNum = TIMER_IRQ_NUM
    · subst timer
      cases inited : st.timerHandler.isInited <;> simp [registerStep, withCause, inited]
    · by_cases ext : irqNum = EXT_IRQ_NUM
      · subst ext
        by_cases empty : st.table.slots extSlot = none
        · have installed : (st.table.registerHandler EXT_IRQ_NUM handler).2 = true ∧
              (st.table.registerHandler EXT_IRQ_NUM handler).1.slots extSlot = some handler :=
            HandlerTable.registerHandler_empty st.table handler empty
          simp [registerStep, withCause, ext_ne_timer, registerHandlerCommon, installed, empty]
        · have unchanged : st.table.registerHandler EXT_IRQ_NUM handler = (st.table, false) :=
            HandlerTable.registerHandler_occupied st.table handler empty
          simp [registerStep, withCause, ext_ne_timer, registerHandlerCommon, unchanged]
      · simp [registerStep, withCause, timer, ext]
  | timerChecked =>
    cases inited : st.timerHandler.isInited <;> simp [registerStep, LazyInit.initOnce, inited]
  | returned ok => simp [registerStep]
  | panicked => simp [registerStep]

/-- Who may have returned `true`: a call that did installed the timer handler or
the external handler, no two such calls share an IRQ number, and only timer
calls wait between their check and `init_once`. -/
structure InstallInv (sys : Cores) : Prop where
  installed : ∀ (i : Nat) (call : RegisterCall), sys.calls[i]? = some call →
    call.pc = .returned true →
      (call.irqNum = TIMER_IRQ_NUM ∧ sys.state.timerHandler.isInited = true) ∨
        (call.irqNum = EXT_IRQ_NUM ∧ sys.state.table.slots extSlot ≠ none)
  unique : ∀ (i j : Nat) (ci cj : RegisterCall), sys.calls[i]? = some ci →
    sys.calls[j]? = some cj → ci.pc = .returned true → cj.pc = .returned true →
      ci.irqNum = cj.irqNum → i = j
  checked : ∀ (i : Nat) (call : RegisterCall), sys.calls[i]? = some call →
    call.pc = .timerChecked → call.irqNum = TIMER_IRQ_NUM

/-- No step undoes an installation: an initialised timer cell stays initialised
and a full external slot stays full. -/
theorem registerStep_keepsInstalled (st : IrqState) (call : RegisterCall) {irqNum : Nat}
    (installed : (irqNum = TIMER_IRQ_NUM ∧ st.timerHandler.isInited = true) ∨
      (irqNum = EXT_IRQ_NUM ∧ st.table.slots extSlot ≠ none)) :
    (irqNum = TIMER_IRQ_NUM ∧ (registerStep st call).1.timerHandler.isInited = true) ∨
      (irqNum = EXT_IRQ_NUM ∧ (registerStep st call).1.table.slots extSlot ≠ none) := by
  rcases registerStep_cases st call with ⟨same, -⟩ | ⟨-, fresh, -, timer⟩ |
      ⟨-, -, -, -, timer, full⟩
  · rwa [same]
  · rcases installed with ⟨-, inited⟩ | ext
    · rw [fresh] at inited; cases inited
    · rw [timer]; exact .inr ext
  · exact installed.imp (fun ⟨num, inited⟩ => ⟨num, by rw [timer]; exact inited⟩)
      fun ⟨num, _⟩ => ⟨num, full⟩

/-- A call that returns `true` at its step, unless it had already, finds no call
with its IRQ number that has returned `true`: the timer cell was empty, or the
external slot was. -/
theorem InstallInv.alone_of_returned {sys : Cores} (inv : InstallInv sys) {core : Nat}
    {call : RegisterCall} (found : sys.calls[core]? = some call)
    (returned : (registerStep sys.state call).2 = .returned true) :
    call.pc = .returned true ∨ ∀ (j : Nat) (other : RegisterCall), sys.calls[j]? = some other →
      other.pc = .returned true → other.irqNum ≠ call.irqNum := by
  rcases registerStep_cases sys.state call with ⟨-, old, -⟩ | ⟨checked, notInited, -⟩ |
      ⟨-, ext, empty, -⟩
  · exact .inl (old returned)
  · refine .inr fun j other get done same => ?_
    rcases inv.installed j other get done with ⟨-, inited⟩ | ⟨ext, -⟩
    · rw [notInited] at inited; cases inited
    · rw [same, inv.checked core call found checked] at ext
      exact ext_ne_timer ext.symm
  · refine .inr fun j other get done same => ?_
    rcases inv.installed j other get done with ⟨timer, -⟩ | ⟨-, full⟩
    · rw [same, ext] at timer
      exact ext_ne_timer timer
    · exact full empty

namespace Cores

theorem step_getElem? {sys : Cores} {core : Nat} {call : RegisterCall}
    (found : sys.calls[core]? = some call) (i : Nat) :
    (sys.step core).calls[i]? =
      if core = i then some { call with pc := (registerStep sys.state call).2 }
      else sys.calls[i]? := by
  have inRange : core < sys.calls.length := (List.getElem?_eq_some_iff.mp found).1
  simp [step, found, List.getElem?_set, inRange]

theorem step_state {sys : Cores} {core : Nat} {call : RegisterCall}
    (found : sys.calls[core]? = some call) : (sys.step core).state = (registerStep sys.state call).1 := by
  simp [step, found]

/-- The step lemma: every step of every core keeps `InstallInv`. -/
theorem step_installInv {sys : Cores} (inv : InstallInv sys) (core : Nat) :
    InstallInv (sys.step core) := by
  cases found : sys.calls[core]? with
  | none => simpa [step, found] using inv
  | some call =>
    have calls := step_getElem? found
    refine ⟨fun i c get done => ?_, fun i j ci cj getI getJ doneI doneJ same => ?_,
      fun i c get waiting => ?_⟩
    · rw [step_state found]
      rw [calls] at get
      split_ifs at get with here
      · cases get
        rcases registerStep_cases sys.state call with ⟨-, old, -⟩ | ⟨checked, -, -, installed⟩ |
            ⟨-, ext, -, -, -, full⟩
        · exact registerStep_keepsInstalled _ _ (inv.installed core call found (old done))
        · exact .inl ⟨inv.checked core call found checked, by rw [installed]; rfl⟩
        · exact .inr ⟨ext, full⟩
      · exact registerStep_keepsInstalled _ _ (inv.installed i c get done)
    · rw [calls] at getI getJ
      split_ifs at getI getJ with hereI hereJ hereJ
      · exact hereI.symm.trans hereJ
      · cases getI
        rcases inv.alone_of_returned found doneI with old | alone
        · exact hereI.symm.trans (inv.unique core j call cj found getJ old doneJ same)
        · exact absurd same.symm (alone j cj getJ doneJ)
      · cases getJ
        rcases inv.alone_of_returned found doneJ with old | alone
        · exact (inv.unique core i call ci found getI old doneI same.symm).symm.trans hereJ
        · exact absurd same (alone i ci getI doneI)
      · exact inv.unique i j ci cj getI getJ doneI doneJ same
    · rw [calls] at get
      split_ifs at get with here
      · cases get
        rcases registerStep_cases sys.state call with ⟨-, -, checked⟩ | ⟨-, -, returned, -⟩ |
            ⟨-, -, -, returned, -⟩
        · exact checked waiting
        all_goals rw [returned] at waiting; cases waiting
      · exact inv.checked i c get waiting

/-- The run lemma: every interleaving keeps `InstallInv`. -/
theorem run_installInv : ∀ {sys : Cores} (schedule : List Nat), InstallInv sys →
    InstallInv (sys.run schedule)
  | _, [], inv => inv
  | _, core :: schedule, inv => run_installInv schedule (step_installInv inv core)

/-- Calls issued from boot all stand at their start. -/
theorem start_pc {requests : List (Nat × Handler)} {i : Nat} {call : RegisterCall}
    (get : (start requests).calls[i]? = some call) : call.pc = .start := by
  simp only [start, List.getElem?_map, Option.map_eq_some'] at get
  obtain ⟨_, _, rfl⟩ := get
  rfl

theorem start_installInv (requests : List (Nat × Handler)) : InstallInv (start requests) where
  installed _ _ get done := by rw [start_pc get] at done; cases done
  unique _ _ _ _ get _ done := by rw [start_pc get] at done; cases done
  checked _ _ get waiting := by rw [start_pc get] at waiting; cases waiting

end Cores

/-- Over every interleaving of `register_handler` calls issued from boot on any
number of cores, a call that returned `true` registered the timer or the
external interrupt, and no two calls that returned `true` share an IRQ number. -/
theorem run_installsAtMostOnce (requests : List (Nat × Handler)) (schedule : List Nat) :
    (∀ (i : Nat) (call : RegisterCall), ((Cores.start requests).run schedule).calls[i]? = some call →
        call.pc = .returned true → call.irqNum = TIMER_IRQ_NUM ∨ call.irqNum = EXT_IRQ_NUM) ∧
      ∀ (i j : Nat) (ci cj : RegisterCall),
        ((Cores.start requests).run schedule).calls[i]? = some ci →
        ((Cores.start requests).run schedule).calls[j]? = some cj →
        ci.pc = .returned true → cj.pc = .returned true → ci.irqNum = cj.irqNum → i = j := by
  have inv := Cores.run_installInv schedule (Cores.start_installInv requests)
  refine ⟨fun i call get done => ?_, inv.unique⟩
  rcases inv.installed i call get done with ⟨timer, -⟩ | ⟨ext, -⟩
  · exact .inl timer
  · exact .inr ext

/-- Two cores registering the external interrupt, interleaved step by step. -/
theorem run_installsAtMostOnce_racingExt :
    (∀ (i : Nat) (call : RegisterCall),
        ((Cores.start [(EXT_IRQ_NUM, sampleHandler), (EXT_IRQ_NUM, sampleHandler)]).run
          [0, 1, 0, 1]).calls[i]? = some call →
        call.pc = .returned true → call.irqNum = TIMER_IRQ_NUM ∨ call.irqNum = EXT_IRQ_NUM) ∧
      ∀ (i j : Nat) (ci cj : RegisterCall),
        ((Cores.start [(EXT_IRQ_NUM, sampleHandler), (EXT_IRQ_NUM, sampleHandler)]).run
          [0, 1, 0, 1]).calls[i]? = some ci →
        ((Cores.start [(EXT_IRQ_NUM, sampleHandler), (EXT_IRQ_NUM, sampleHandler)]).run
          [0, 1, 0, 1]).calls[j]? = some cj →
        ci.pc = .returned true → cj.pc = .returned true → ci.irqNum = cj.irqNum → i = j :=
  run_installsAtMostOnce _ _

/-- Two timer registrations racing from boot: both read `is_inited() = false`,
the first `init_once` succeeds and the second panics. -/
theorem timerRace_panics (first second : Handler) :
    (((Cores.start [(TIMER_IRQ_NUM, first), (TIMER_IRQ_NUM, second)]).run [0, 1, 0, 1]).calls.map
      RegisterCall.pc) = [.returned true, .panicked] :=
  rfl

end ThCore.Axhal

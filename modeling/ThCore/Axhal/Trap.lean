import Mathlib.Logic.Function.Basic
import ThCore.Machine

/-!
# The LoongArch64 trap handler

`loongarch64_trap_handler` of `axhal/src/arch/loongarch64/trap.rs`.  It reads the
cause from `ESTAT`, and then:

* for a system call (feature `uspace`) writes `handle_syscall`'s result to `$a0`
  (`regs[4]`) and steps `era` past the `syscall` instruction;
* for a load, fetch or store page fault asks the `PAGE_FAULT` handler about the
  address in `BADV`, and panics when the handler refuses;
* for a breakpoint steps `era`;
* for an interrupt hands the lowest pending line of `ESTAT.IS` to the `IRQ` handler;
* panics on every other cause.

The handler is a function from the frame, `ESTAT` and `BADV` to the frame it
leaves and the calls it makes into the kernel, or `none` where it panics.  The
kernel's handlers are parameters.  Beside it stands `specTrapDispatch`, the
dispatch as the specification words it, and `loongarch64TrapHandler_eq_spec`
shows the two agree on every cause but one: the code handles a fetch page fault
as a load fault (`loongarch64TrapHandler_fetchPageFault`).
-/

namespace ThCore.Axhal

/-! ## Trap frame and causes -/

/-- `TrapFrame`: the registers the trap entry saves. -/
structure TrapFrame where
  regs : Fin 32 → UInt64
  prmd : UInt64
  era : UInt64
  badv : UInt64
  crmd : UInt64

/-- `estat::Exception`.  The handler names five exceptions; `Other` stands for
every other one (`PageModifyFault`, `PageNonExecutableFault`, ...), which all
reach the same panic. -/
inductive Exception where
  | LoadPageFault
  | StorePageFault
  | FetchPageFault
  | Syscall
  | Breakpoint
  | Other
  deriving DecidableEq, Repr

/-- `estat::Trap`; the handler reads no payload. -/
inductive Trap where
  | Exception (exception : Exception)
  | Interrupt
  | MachineError
  | Unknown
  deriving DecidableEq, Repr

/-- What the handler reads of `ESTAT`: the decoded cause and the pending
interrupt lines `IS`. -/
structure Estat where
  cause : Trap
  is : UInt64
  deriving DecidableEq, Repr

/-- `usize::trailing_zeros` on a `width`-bit word. -/
def trailingZeros : (width : Nat) → Nat → Nat
  | 0, _ => 0
  | width + 1, bits => if bits % 2 = 1 then 0 else trailingZeros width (bits / 2) + 1

/-! ## The handler -/

/-- A call the handler makes into the kernel: `handle_syscall`, or the handler
registered for `PAGE_FAULT` or `IRQ` through `handle_trap!`. -/
inductive TrapCall where
  | syscall (tf : TrapFrame) (sysno : UInt64)
  | pageFault (vaddr : UInt64) (accessFlags : MappingFlags) (isUser : Bool)
  | irq (irqNum : Nat)

/-- The kernel's side: `crate::trap::handle_syscall` (an `isize`) and the answer of
the `PAGE_FAULT` handler. -/
structure TrapHandlers where
  handleSyscall : TrapFrame → UInt64 → Int
  pageFault : UInt64 → MappingFlags → Bool → Bool

/-- `handle_breakpoint`. -/
def handleBreakpoint (era : UInt64) : UInt64 :=
  era + 4

/-- `handle_page_fault`: the call it makes, or `none` where it panics because the
handler refused. -/
def handlePageFault (handlers : TrapHandlers) (badv : UInt64) (accessFlags : MappingFlags)
    (isUser : Bool) : Option TrapCall :=
  let accessFlags := if isUser then accessFlags ||| MappingFlags.USER else accessFlags
  if handlers.pageFault badv accessFlags isUser then some (.pageFault badv accessFlags isUser)
  else none

/-- `loongarch64_trap_handler`, with feature `uspace` as given.  `badv` is the
`BADV` register, which `handle_page_fault` reads afresh. -/
def loongarch64TrapHandler (uspace : Bool) (handlers : TrapHandlers) (estat : Estat)
    (badv : UInt64) (tf : TrapFrame) (fromUser : Bool) : Option (TrapFrame × List TrapCall) :=
  match estat.cause with
  | .Exception .Syscall =>
    if uspace then
      some ({ tf with
          regs := Function.update tf.regs 4
            (isizeAsUsize (handlers.handleSyscall tf (tf.regs 11)))
          era := tf.era + 4 },
        [.syscall tf (tf.regs 11)])
    else none
  | .Exception .LoadPageFault | .Exception .FetchPageFault =>
    (handlePageFault handlers badv .READ fromUser).map fun call => (tf, [call])
  | .Exception .StorePageFault =>
    (handlePageFault handlers badv .WRITE fromUser).map fun call => (tf, [call])
  | .Exception .Breakpoint => some ({ tf with era := handleBreakpoint tf.era }, [])
  | .Interrupt => some (tf, [.irq (trailingZeros 64 estat.is.toNat)])
  | _ => none

/-! ## The dispatch the specification describes -/

/-- The closed dispatch in the specification's words: a system call stores its
result in `$a0` and advances `era` by one instruction; a breakpoint advances
`era`; a load, fetch or store fault asks for read, execute or write access
(plus `USER` from user mode) and is fatal when refused; an interrupt goes to the
lowest pending line; every other cause is fatal. -/
def specTrapDispatch (handlers : TrapHandlers) (estat : Estat) (badv : UInt64) (tf : TrapFrame)
    (fromUser : Bool) : Option (TrapFrame × List TrapCall) :=
  let pageFault (accessFlags : MappingFlags) :=
    (handlePageFault handlers badv accessFlags fromUser).map fun call => (tf, [call])
  match estat.cause with
  | .Exception .Syscall =>
    some ({ tf with
        regs := Function.update tf.regs 4 (isizeAsUsize (handlers.handleSyscall tf (tf.regs 11)))
        era := tf.era + 4 },
      [.syscall tf (tf.regs 11)])
  | .Exception .LoadPageFault => pageFault .READ
  | .Exception .FetchPageFault => pageFault .EXECUTE
  | .Exception .StorePageFault => pageFault .WRITE
  | .Exception .Breakpoint => some ({ tf with era := tf.era + 4 }, [])
  | .Interrupt => some (tf, [.irq (trailingZeros 64 estat.is.toNat)])
  | _ => none

section Dispatch

variable (handlers : TrapHandlers) (badv : UInt64) (tf : TrapFrame) (fromUser : Bool)

/-- With `uspace`, the handler is the specified dispatch on every cause except a
fetch page fault. -/
theorem loongarch64TrapHandler_eq_spec {estat : Estat}
    (notFetch : estat.cause ≠ .Exception .FetchPageFault) :
    loongarch64TrapHandler true handlers estat badv tf fromUser =
      specTrapDispatch handlers estat badv tf fromUser := by
  rcases estat with ⟨cause, is⟩
  cases cause with
  | Exception exception => cases exception <;> simp_all [loongarch64TrapHandler, specTrapDispatch,
      handleBreakpoint]
  | _ => rfl

/-- A fetch page fault is handled exactly as the specification handles a load
fault: the `PAGE_FAULT` handler is asked for read access, never for execute.  So
whenever the handler resumes from a fetch fault, it has done something else than
the specified dispatch of that fault, which asks for execute access. -/
theorem loongarch64TrapHandler_fetchPageFault (uspace : Bool) (is : UInt64) :
    loongarch64TrapHandler uspace handlers ⟨.Exception .FetchPageFault, is⟩ badv tf fromUser =
        specTrapDispatch handlers ⟨.Exception .LoadPageFault, is⟩ badv tf fromUser ∧
      ((loongarch64TrapHandler uspace handlers ⟨.Exception .FetchPageFault, is⟩ badv tf
          fromUser).isSome →
        loongarch64TrapHandler uspace handlers ⟨.Exception .FetchPageFault, is⟩ badv tf fromUser ≠
          specTrapDispatch handlers ⟨.Exception .FetchPageFault, is⟩ badv tf fromUser) := by
  refine ⟨rfl, fun resumed same => ?_⟩
  simp only [loongarch64TrapHandler, specTrapDispatch, handlePageFault] at resumed same
  split_ifs at resumed same <;> simp at resumed same
  all_goals
    have execute := congrArg MappingFlags.execute same
    simp [MappingFlags.READ, MappingFlags.EXECUTE, MappingFlags.USER, MappingFlags.empty] at execute

/-- A fetch fault from user mode at `0x2000` that the `PAGE_FAULT` handler accepts:
the handler resumes after asking for read access, where the specification asks for
execute access. -/
theorem loongarch64TrapHandler_fetchPageFault_accepted :
    loongarch64TrapHandler true ⟨fun _ _ => 0, fun _ _ _ => true⟩ ⟨.Exception .FetchPageFault, 0⟩
        0x2000 ⟨fun _ => 0, 0, 0, 0, 0⟩ true =
      specTrapDispatch ⟨fun _ _ => 0, fun _ _ _ => true⟩ ⟨.Exception .LoadPageFault, 0⟩ 0x2000
        ⟨fun _ => 0, 0, 0, 0, 0⟩ true ∧
    ((loongarch64TrapHandler true ⟨fun _ _ => 0, fun _ _ _ => true⟩ ⟨.Exception .FetchPageFault, 0⟩
        0x2000 ⟨fun _ => 0, 0, 0, 0, 0⟩ true).isSome = true ∧
      loongarch64TrapHandler true ⟨fun _ _ => 0, fun _ _ _ => true⟩ ⟨.Exception .FetchPageFault, 0⟩
          0x2000 ⟨fun _ => 0, 0, 0, 0, 0⟩ true ≠
        specTrapDispatch ⟨fun _ _ => 0, fun _ _ _ => true⟩ ⟨.Exception .FetchPageFault, 0⟩ 0x2000
          ⟨fun _ => 0, 0, 0, 0, 0⟩ true) :=
  ⟨(loongarch64TrapHandler_fetchPageFault _ _ _ _ true 0).1, rfl,
    (loongarch64TrapHandler_fetchPageFault _ _ _ _ true 0).2 rfl⟩

end Dispatch

end ThCore.Axhal

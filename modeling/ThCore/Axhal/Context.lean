import Mathlib.Logic.Function.Basic
import Mathlib.Data.UInt

/-!
# Task context switch

`TaskContext` and `switch_to` of `axhal/src/arch/loongarch64/context.rs`, with the
`uspace` feature (the `pgdl` field) and the `tls` feature as a flag.  `switch_to`
saves and loads `$tp` (with `tls`), writes the `PGDL` root register only when the
two contexts' roots differ, and lets `context_switch` save the callee-saved
registers of the current task and load those of the next.

The skipped write is sound because of an invariant the code never checks: the
hardware root always equals the root of the running task's context
(`System.RootInv`).  The module proves it over every schedule that starts from
boot (where `init_mmu` has written 0 to `PGDL` and every context is zeroed), and
with it that the schedule refines an abstract machine in which each task owns
its registers and a switch only changes which task runs
(`System.run_refines`).  The TLB, which `write_page_table_root0` flushes, is not
modelled.
-/

namespace ThCore.Axhal

/-! ## Contexts and the CPU -/

/-- `TaskContext`: `ra`, `sp`, the ten callee-saved registers `$s0`..`$s8`, `$fp`
(`s`), `tp` and the user page-table root `pgdl`. -/
structure TaskContext where
  ra : UInt64
  sp : UInt64
  s : Fin 10 → UInt64
  tp : UInt64
  pgdl : UInt64

/-- The CPU state `switch_to` reads and writes: the same registers, and the
`PGDL` control register. -/
structure Cpu where
  ra : UInt64
  sp : UInt64
  s : Fin 10 → UInt64
  tp : UInt64
  pgdl : UInt64

namespace TaskContext

/-- `TaskContext::new`: all zero. -/
def new : TaskContext :=
  ⟨0, 0, fun _ => 0, 0, 0⟩

/-- `TaskContext::init`. -/
def init (ctx : TaskContext) (entry kstackTop tlsArea : UInt64) : TaskContext :=
  { ctx with sp := kstackTop, ra := entry, tp := tlsArea }

/-- `TaskContext::set_page_table_root`. -/
def setPageTableRoot (ctx : TaskContext) (pgdl : UInt64) : TaskContext :=
  { ctx with pgdl := pgdl }

end TaskContext

/-- `context_switch`: store `ra`, `sp` and `s` into `current`, load `next`'s. -/
def contextSwitch (cpu : Cpu) (current next : TaskContext) : Cpu × TaskContext :=
  ({ cpu with ra := next.ra, sp := next.sp, s := next.s },
    { current with ra := cpu.ra, sp := cpu.sp, s := cpu.s })

/-- `write_page_table_root0`. -/
def writePageTableRoot0 (cpu : Cpu) (root : UInt64) : Cpu :=
  { cpu with pgdl := root }

/-- `TaskContext::switch_to`: the CPU afterwards and the saved current context. -/
def TaskContext.switchTo (tls : Bool) (cpu : Cpu) (self next : TaskContext) :
    Cpu × TaskContext :=
  let self := if tls then { self with tp := cpu.tp } else self
  let cpu := if tls then { cpu with tp := next.tp } else cpu
  let cpu := if self.pgdl ≠ next.pgdl then writePageTableRoot0 cpu next.pgdl else cpu
  contextSwitch cpu self next

/-- `switch_to` with the root written unconditionally. -/
def switchToAlways (tls : Bool) (cpu : Cpu) (self next : TaskContext) : Cpu × TaskContext :=
  let self := if tls then { self with tp := cpu.tp } else self
  let cpu := if tls then { cpu with tp := next.tp } else cpu
  contextSwitch (writePageTableRoot0 cpu next.pgdl) self next

/-! ## Schedules -/

/-- A step of a schedule: the running task computes (any registers but the root
change), `init` or `set_page_table_root` on a context, or `switch_to`. -/
inductive TaskOp where
  | run (ra sp : UInt64) (s : Fin 10 → UInt64) (tp : UInt64)
  | init (task : Nat) (entry kstackTop tlsArea : UInt64)
  | setPageTableRoot (task : Nat) (pgdl : UInt64)
  | switchTo (next : Nat)

/-- The calling convention a scheduler keeps and the code relies on: `init` and
`set_page_table_root` touch suspended contexts only, and `switch_to` goes from
the running task to another one. -/
def TaskOp.allowed (running : Nat) : TaskOp → Bool
  | .run .. => true
  | .init task .. => task != running
  | .setPageTableRoot task _ => task != running
  | .switchTo next => next != running

/-- The CPU, one context per task, and the running task. -/
structure System where
  cpu : Cpu
  contexts : Nat → TaskContext
  running : Nat

/-- After `init_mmu`: `PGDL` is 0, every context is `TaskContext::new()`, task 0
runs. -/
def System.boot (ra sp : UInt64) (s : Fin 10 → UInt64) (tp : UInt64) : System :=
  ⟨⟨ra, sp, s, tp, 0⟩, fun _ => TaskContext.new, 0⟩

namespace System

/-- One step, with `switch` the switch routine. -/
def stepWith (switch : Cpu → TaskContext → TaskContext → Cpu × TaskContext) (sys : System) :
    TaskOp → System
  | .run ra sp s tp => { sys with cpu := { sys.cpu with ra := ra, sp := sp, s := s, tp := tp } }
  | .init task entry kstackTop tlsArea =>
    { sys with
      contexts := Function.update sys.contexts task
        ((sys.contexts task).init entry kstackTop tlsArea) }
  | .setPageTableRoot task pgdl =>
    { sys with
      contexts := Function.update sys.contexts task ((sys.contexts task).setPageTableRoot pgdl) }
  | .switchTo next =>
    let switched := switch sys.cpu (sys.contexts sys.running) (sys.contexts next)
    ⟨switched.1, Function.update sys.contexts sys.running switched.2, next⟩

/-- A schedule, step by step. -/
def runWith (switch : Cpu → TaskContext → TaskContext → Cpu × TaskContext) :
    System → List TaskOp → System
  | sys, [] => sys
  | sys, op :: ops => (sys.stepWith switch op).runWith switch ops

/-- Every step of the schedule keeps the calling convention. -/
def scheduleOk (tls : Bool) : System → List TaskOp → Bool
  | _, [] => true
  | sys, op :: ops =>
    op.allowed sys.running && (sys.stepWith (TaskContext.switchTo tls) op).scheduleOk tls ops

end System

/-! ## The abstract machine -/

/-- What a task owns: its return address, stack pointer, callee-saved registers
and page-table root. -/
structure Regs where
  ra : UInt64
  sp : UInt64
  s : Fin 10 → UInt64
  pgdl : UInt64

/-- The registers the CPU holds. -/
def Cpu.regs (cpu : Cpu) : Regs :=
  ⟨cpu.ra, cpu.sp, cpu.s, cpu.pgdl⟩

/-- The registers a context holds. -/
def TaskContext.regs (ctx : TaskContext) : Regs :=
  ⟨ctx.ra, ctx.sp, ctx.s, ctx.pgdl⟩

/-- Every task with its own registers: switching only changes which task runs. -/
structure AbsSystem where
  regs : Nat → Regs
  running : Nat

namespace AbsSystem

/-- One abstract step. -/
def step (abs : AbsSystem) : TaskOp → AbsSystem
  | .run ra sp s _ =>
    { abs with
      regs := Function.update abs.regs abs.running
        { abs.regs abs.running with ra := ra, sp := sp, s := s } }
  | .init task entry kstackTop _ =>
    { abs with regs := Function.update abs.regs task { abs.regs task with ra := entry, sp := kstackTop } }
  | .setPageTableRoot task pgdl =>
    { abs with regs := Function.update abs.regs task { abs.regs task with pgdl := pgdl } }
  | .switchTo next => { abs with running := next }

/-- An abstract schedule. -/
def run : AbsSystem → List TaskOp → AbsSystem
  | abs, [] => abs
  | abs, op :: ops => (abs.step op).run ops

end AbsSystem

namespace System

/-- The abstract view: the running task's registers are on the CPU, a suspended
task's in its context. -/
def abstract (sys : System) : AbsSystem :=
  ⟨fun task => if task = sys.running then sys.cpu.regs else (sys.contexts task).regs, sys.running⟩

/-- The hardware root is the running context's root. -/
def RootInv (sys : System) : Prop :=
  sys.cpu.pgdl = (sys.contexts sys.running).pgdl

theorem rootInv_boot (ra sp : UInt64) (s : Fin 10 → UInt64) (tp : UInt64) :
    (boot ra sp s tp).RootInv :=
  rfl

/-- A suspended task's registers are its context's. -/
theorem abstract_regs_of_ne {sys : System} {task : Nat} (suspended : task ≠ sys.running) :
    sys.abstract.regs task = (sys.contexts task).regs :=
  if_neg suspended

/-- Updating a suspended context updates that task's abstract registers only. -/
theorem abstract_updateContext {sys : System} {task : Nat} (suspended : task ≠ sys.running)
    (ctx : TaskContext) :
    ({ sys with contexts := Function.update sys.contexts task ctx } : System).abstract =
      { sys.abstract with regs := Function.update sys.abstract.regs task ctx.regs } := by
  simp only [abstract, AbsSystem.mk.injEq, and_true]
  funext t
  by_cases target : t = task
  · subst target
    simp [suspended]
  · simp [target]

/-! ## One switch -/

section Switch

variable (tls : Bool) (cpu : Cpu) (self next : TaskContext)

/-- When the hardware root is `self`'s, skipping the write changes nothing. -/
theorem switchTo_eq_switchToAlways (root : cpu.pgdl = self.pgdl) :
    TaskContext.switchTo tls cpu self next = switchToAlways tls cpu self next := by
  by_cases same : self.pgdl = next.pgdl
  · have unchanged : ∀ c : Cpu, c.pgdl = cpu.pgdl → writePageTableRoot0 c next.pgdl = c := by
      intro c keep
      rw [← same, ← root, ← keep]
      rfl
    cases tls <;> simp [TaskContext.switchTo, switchToAlways, same, unchanged]
  · cases tls <;> simp [TaskContext.switchTo, switchToAlways, same]

/-- `switch_to` loads `next`'s registers, its root included. -/
theorem switchTo_cpu_regs (root : cpu.pgdl = self.pgdl) :
    (TaskContext.switchTo tls cpu self next).1.regs = next.regs := by
  rw [switchTo_eq_switchToAlways tls cpu self next root]
  cases tls <;> rfl

/-- With `tls`, `switch_to` loads `next`'s thread pointer. -/
theorem switchTo_cpu_tp :
    (TaskContext.switchTo tls cpu self next).1.tp = if tls then next.tp else cpu.tp := by
  cases tls <;> by_cases same : self.pgdl = next.pgdl <;>
    simp [TaskContext.switchTo, contextSwitch, writePageTableRoot0, same]

/-- `switch_to` saves the CPU's registers into `self`. -/
theorem switchTo_saved_regs (root : cpu.pgdl = self.pgdl) :
    (TaskContext.switchTo tls cpu self next).2.regs = cpu.regs := by
  rw [switchTo_eq_switchToAlways tls cpu self next root]
  cases tls <;>
    simp [switchToAlways, contextSwitch, writePageTableRoot0, TaskContext.regs, Cpu.regs, root]

end Switch

/-! ## Every step keeps the invariant and refines the abstract machine -/

variable {tls : Bool}

/-- The step lemma: an allowed step keeps the root invariant, matches the
abstract step, and is the step with an unconditional root write. -/
theorem step_refines {sys : System} (inv : sys.RootInv) {op : TaskOp}
    (allowed : op.allowed sys.running = true) :
    (sys.stepWith (TaskContext.switchTo tls) op).RootInv ∧
      (sys.stepWith (TaskContext.switchTo tls) op).abstract = sys.abstract.step op ∧
      sys.stepWith (TaskContext.switchTo tls) op = sys.stepWith (switchToAlways tls) op := by
  cases op with
  | run ra sp s tp =>
    refine ⟨inv, ?_, rfl⟩
    simp only [abstract, stepWith, AbsSystem.step, AbsSystem.mk.injEq, and_true]
    funext task
    by_cases current : task = sys.running
    · subst current
      simp [Cpu.regs]
    · simp [current]
  | init task _ _ _ | setPageTableRoot task _ =>
    have suspended : task ≠ sys.running := by simpa [TaskOp.allowed] using allowed
    refine ⟨by simpa [RootInv, stepWith, Ne.symm suspended] using inv, ?_, rfl⟩
    rw [stepWith, abstract_updateContext suspended, AbsSystem.step, abstract_regs_of_ne suspended]
    rfl
  | switchTo next =>
    have suspended : next ≠ sys.running := by simpa [TaskOp.allowed] using allowed
    have resumed := switchTo_cpu_regs tls sys.cpu _ (sys.contexts next) inv
    refine ⟨?_, ?_, by simp only [stepWith, switchTo_eq_switchToAlways tls sys.cpu _ _ inv]⟩
    · simpa [RootInv, stepWith, suspended, Cpu.regs, TaskContext.regs] using
        congrArg Regs.pgdl resumed
    · simp only [abstract, stepWith, AbsSystem.step, AbsSystem.mk.injEq, and_true]
      funext t
      by_cases target : t = next
      · subst target
        simp [resumed, suspended]
      · by_cases current : t = sys.running
        · subst current
          simp [target, switchTo_saved_regs tls sys.cpu _ (sys.contexts next) inv]
        · simp [target, current]

/-- The run lemma: along a schedule that keeps the calling convention, the
invariant holds throughout, the schedule refines the abstract one, and writing
the root unconditionally would leave the same states. -/
theorem run_refines :
    ∀ {sys : System} (ops : List TaskOp), sys.RootInv → sys.scheduleOk tls ops = true →
      (sys.runWith (TaskContext.switchTo tls) ops).RootInv ∧
        (sys.runWith (TaskContext.switchTo tls) ops).abstract = sys.abstract.run ops ∧
        sys.runWith (TaskContext.switchTo tls) ops = sys.runWith (switchToAlways tls) ops
  | _, [], inv, _ => ⟨inv, rfl, rfl⟩
  | sys, op :: ops, inv, valid => by
    simp only [scheduleOk, Bool.and_eq_true] at valid
    obtain ⟨stepInv, stepAbs, stepSame⟩ := step_refines inv valid.1
    obtain ⟨runInv, runAbs, runSame⟩ := run_refines ops stepInv valid.2
    exact ⟨runInv, by rw [runWith, runAbs, stepAbs]; rfl, by rw [runWith, runSame, stepSame]; rfl⟩

theorem scheduleOk_append :
    ∀ (sys : System) (ops rest : List TaskOp),
      sys.scheduleOk tls (ops ++ rest) =
        (sys.scheduleOk tls ops && (sys.runWith (TaskContext.switchTo tls) ops).scheduleOk tls rest)
  | _, [], _ => rfl
  | sys, op :: ops, rest => by
    rw [List.cons_append, scheduleOk, scheduleOk, runWith, scheduleOk_append _ ops rest,
      Bool.and_assoc]

/-- A switch after any schedule from boot that keeps the calling convention: the
CPU then holds the next task's registers as the abstract machine has them (those
it held when it last ran, or those `init` and `set_page_table_root` gave it), which
are its saved context, root included; with `tls` it holds the next task's thread
pointer; and the whole run is the run that writes the root unconditionally. -/
theorem switchTo_resumes_next (tls : Bool) (ra sp : UInt64) (s : Fin 10 → UInt64) (tp : UInt64)
    (ops : List TaskOp) (next : Nat)
    (valid : (boot ra sp s tp).scheduleOk tls (ops ++ [.switchTo next]) = true) :
    let before := (boot ra sp s tp).runWith (TaskContext.switchTo tls) ops
    let after := before.stepWith (TaskContext.switchTo tls) (.switchTo next)
    after.cpu.regs = ((boot ra sp s tp).abstract.run ops).regs next ∧
      after.cpu.regs = (before.contexts next).regs ∧
      (tls = true → after.cpu.tp = (before.contexts next).tp) ∧
      (boot ra sp s tp).runWith (TaskContext.switchTo tls) (ops ++ [.switchTo next]) =
        (boot ra sp s tp).runWith (switchToAlways tls) (ops ++ [.switchTo next]) := by
  intro before after
  rw [scheduleOk_append, Bool.and_eq_true] at valid
  obtain ⟨inv, refines, -⟩ := run_refines ops (rootInv_boot ra sp s tp) valid.1
  have suspended : next ≠ before.running := by
    simpa [scheduleOk, TaskOp.allowed] using valid.2
  have resumed : after.cpu.regs = (before.contexts next).regs :=
    switchTo_cpu_regs tls before.cpu _ _ inv
  refine ⟨?_, resumed, fun tlsOn => ?_, ?_⟩
  · rw [resumed, ← refines, abstract_regs_of_ne suspended]
  · simp [after, stepWith, switchTo_cpu_tp, tlsOn]
  · exact (run_refines (ops ++ [.switchTo next]) (rootInv_boot ra sp s tp)
      (by rw [scheduleOk_append, valid.1, valid.2]; rfl)).2.2

theorem switchTo_resumes_next_fresh :
    let ops := [TaskOp.init 1 0x9000 0x8000 0, .setPageTableRoot 1 0x5000]
    (((boot 0 0 (fun _ => 0) 0).runWith (TaskContext.switchTo true) ops).stepWith
        (TaskContext.switchTo true) (.switchTo 1)).cpu.regs =
      ((boot 0 0 (fun _ => 0) 0).abstract.run ops).regs 1 :=
  (switchTo_resumes_next true 0 0 (fun _ => 0) 0
    [TaskOp.init 1 0x9000 0x8000 0, .setPageTableRoot 1 0x5000] 1 rfl).1

end System

end ThCore.Axhal

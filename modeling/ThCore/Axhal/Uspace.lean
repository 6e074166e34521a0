import ThCore.Axhal.Trap

/-!
# Entering user space

`UspaceContext` of `axhal/src/arch/loongarch64/context.rs` and its
`enter_uspace`.  The function sets `PRMD` and `ERA` through the CSR accessors and
then runs a block of assembly that keeps the kernel's `$tp`, `$r21` and stack top
in the `KSAVE` scratch CSRs, loads all 31 general registers from the trap frame,
and leaves with `ertn`.

The block is modelled instruction by instruction on the part of a LoongArch64
hart it touches (`Hart`, `Insn.exec`), with the two `in(reg)` operands in
whatever registers the compiler picks.  `enterUspace_entersUser` shows that, for
every context, every hart whose memory holds the frame at `&self.0`, and every
choice of operand registers outside the ones the block itself names, user space
starts with the frame's registers, at `era`, in PLV 3 with interrupts on, and
with the kernel's stack top, `$tp` and `$r21` in the scratch CSRs the trap entry
reads back.
-/

namespace ThCore.Axhal

/-! ## The context -/

/-- `TrapFrame::default()`: every word zero. -/
def TrapFrame.zero : TrapFrame :=
  ⟨fun _ => 0, 0, 0, 0, 0⟩

/-- `UspaceContext`: the trap frame `enter_uspace` restores. -/
structure UspaceContext where
  frame : TrapFrame

namespace UspaceContext

/-- `UspaceContext::empty`: the zeroed context. -/
def empty : UspaceContext :=
  ⟨TrapFrame.zero⟩

/-- `UspaceContext::new`: user `$sp`, `ERA` and `$a0` set, and `PRMD` asking for
PLV 3 with interrupts on. -/
def new (entry ustackTop arg0 : UInt64) : UspaceContext :=
  let pplvUmode : UInt64 := 0b11
  let pie : UInt64 := (1 : UInt64) <<< 2
  let trapFrame := TrapFrame.zero
  let trapFrame := { trapFrame with regs := Function.update trapFrame.regs 3 ustackTop }
  let trapFrame := { trapFrame with era := entry }
  let trapFrame := { trapFrame with prmd := pplvUmode ||| pie }
  let trapFrame := { trapFrame with regs := Function.update trapFrame.regs 4 arg0 }
  ⟨trapFrame⟩

/-- `UspaceContext::from` (`from` is a keyword of Lean). -/
def fromTrapFrame (trapFrame : TrapFrame) : UspaceContext :=
  ⟨trapFrame⟩

/-- `UspaceContext::get_ip`. -/
def getIp (self : UspaceContext) : UInt64 :=
  self.frame.era

/-- `UspaceContext::get_sp`. -/
def getSp (self : UspaceContext) : UInt64 :=
  self.frame.regs 3

/-- `UspaceContext::set_ip`. -/
def setIp (self : UspaceContext) (pc : UInt64) : UspaceContext :=
  ⟨{ self.frame with era := pc }⟩

/-- `UspaceContext::set_sp`. -/
def setSp (self : UspaceContext) (sp : UInt64) : UspaceContext :=
  ⟨{ self.frame with regs := Function.update self.frame.regs 3 sp }⟩

/-- `UspaceContext::set_retval`. -/
def setRetval (self : UspaceContext) (a0 : UInt64) : UspaceContext :=
  ⟨{ self.frame with regs := Function.update self.frame.regs 4 a0 }⟩

end UspaceContext

/-! ## The hart the block runs on -/

/-- What `enter_uspace` reads and writes of a LoongArch64 hart: the general
registers, the scratch CSRs `SAVE0`.. by CSR number, `CRMD.PLV` and `CRMD.IE`,
`PRMD.PPLV` and `PRMD.PIE`, `ERA`, the program counter, and memory as the 8-byte
words `ld.d` reads. -/
structure Hart where
  gpr : Fin 32 → UInt64
  save : Nat → UInt64
  plv : Fin 4
  ie : Bool
  pplv : Fin 4
  pie : Bool
  era : UInt64
  pc : UInt64
  mem : UInt64 → UInt64

namespace Hart

/-- Reading a general register: `$r0` reads as zero. -/
def reg (hart : Hart) (r : Fin 32) : UInt64 :=
  if r = 0 then 0 else hart.gpr r

/-- Writing a general register.  A write to `$r0` lands in a slot `reg` never
reads, which is the architecture's "writes are ignored". -/
def setReg (hart : Hart) (r : Fin 32) (value : UInt64) : Hart :=
  { hart with gpr := Function.update hart.gpr r value }

@[simp] theorem setReg_gpr (hart : Hart) (r : Fin 32) (value : UInt64) :
    (hart.setReg r value).gpr = Function.update hart.gpr r value := rfl

@[simp] theorem setReg_save (hart : Hart) (r : Fin 32) (value : UInt64) :
    (hart.setReg r value).save = hart.save := rfl

@[simp] theorem setReg_mem (hart : Hart) (r : Fin 32) (value : UInt64) :
    (hart.setReg r value).mem = hart.mem := rfl

@[simp] theorem setReg_pplv (hart : Hart) (r : Fin 32) (value : UInt64) :
    (hart.setReg r value).pplv = hart.pplv := rfl

@[simp] theorem setReg_pie (hart : Hart) (r : Fin 32) (value : UInt64) :
    (hart.setReg r value).pie = hart.pie := rfl

@[simp] theorem setReg_era (hart : Hart) (r : Fin 32) (value : UInt64) :
    (hart.setReg r value).era = hart.era := rfl

end Hart

/-- The instructions of `enter_uspace`'s block. -/
inductive Insn where
  /-- `move rd, rj` -/
  | move (rd rj : Fin 32)
  /-- `csrwr rd, csr`: the CSR takes `rd`'s value and `rd` the CSR's old one. -/
  | csrwr (rd : Fin 32) (csr : Nat)
  /-- `ld.d rd, rj, offset` -/
  | ldD (rd rj : Fin 32) (offset : UInt64)
  /-- `ertn`: back to `PRMD`'s privilege level and interrupt enable, at `ERA`. -/
  | ertn
  deriving DecidableEq, Repr

/-- One instruction. -/
def Insn.exec (hart : Hart) : Insn → Hart
  | .move rd rj => hart.setReg rd (hart.reg rj)
  | .csrwr rd csr =>
    { hart with save := Function.update hart.save csr (hart.reg rd) }.setReg rd (hart.save csr)
  | .ldD rd rj offset => hart.setReg rd (hart.mem (hart.reg rj + offset))
  | .ertn => { hart with plv := hart.pplv, ie := hart.pie, pc := hart.era }

/-- `KSAVE_KSP`: the kernel stack top, for the trap entry. -/
def ksaveKsp : Nat := 0x30

/-- `KSAVE_R21`: the kernel's `$r21`. -/
def ksaveR21 : Nat := 0x33

/-- `KSAVE_TP`: the kernel's `$tp`. -/
def ksaveTp : Nat := 0x34

/-- The `asm!` block of `enter_uspace`, with `{tf}` and `{kstack_top}` in the
registers `tf` and `kstackTop` the compiler picks. -/
def enterUspaceBlock (tf kstackTop : Fin 32) : List Insn :=
  [.move 3 tf,
   .csrwr 2 ksaveTp,
   .csrwr 21 ksaveR21,
   .csrwr kstackTop ksaveKsp,
   .ldD 1 3 (1*8),
   .ldD 2 3 (2*8),
   .ldD 4 3 (4*8),
   .ldD 5 3 (5*8),
   .ldD 6 3 (6*8),
   .ldD 7 3 (7*8),
   .ldD 8 3 (8*8),
   .ldD 9 3 (9*8),
   .ldD 10 3 (10*8),
   .ldD 11 3 (11*8),
   .ldD 12 3 (12*8),
   .ldD 13 3 (13*8),
   .ldD 14 3 (14*8),
   .ldD 15 3 (15*8),
   .ldD 16 3 (16*8),
   .ldD 17 3 (17*8),
   .ldD 18 3 (18*8),
   .ldD 19 3 (19*8),
   .ldD 20 3 (20*8),
   .ldD 21 3 (21*8),
   .ldD 22 3 (22*8),
   .ldD 23 3 (23*8),
   .ldD 24 3 (24*8),
   .ldD 25 3 (25*8),
   .ldD 26 3 (26*8),
   .ldD 27 3 (27*8),
   .ldD 28 3 (28*8),
   .ldD 29 3 (29*8),
   .ldD 30 3 (30*8),
   .ldD 31 3 (31*8),
   .ldD 3 3 (3*8),
   .ertn]

/-- `UspaceContext::enter_uspace`, run from `hart` with the context at address
`selfAddr`: the CSR writes before the block, the compiler's loading of the two
operands, and the block. -/
def UspaceContext.enterUspace (self : UspaceContext) (kstackTop selfAddr : UInt64)
    (tf kstackTopReg : Fin 32) (hart : Hart) : Hart :=
  let hart := { hart with ie := false }
  let hart := { hart with pplv := 3 }
  let hart := { hart with pie := true }
  let hart := { hart with era := self.getIp }
  let hart := (hart.setReg tf selfAddr).setReg kstackTopReg kstackTop
  (enterUspaceBlock tf kstackTopReg).foldl Insn.exec hart

/-- `enter_uspace` runs the block from the hart its CSR writes and the operand
loading leave. -/
theorem UspaceContext.enterUspace_eq (self : UspaceContext) (kstackTop selfAddr : UInt64)
    (tf kstackTopReg : Fin 32) (hart : Hart) :
    self.enterUspace kstackTop selfAddr tf kstackTopReg hart =
      (enterUspaceBlock tf kstackTopReg).foldl Insn.exec
        (({ hart with ie := false, pplv := 3, pie := true, era := self.getIp }.setReg tf
          selfAddr).setReg kstackTopReg kstackTop) :=
  rfl

/-! ## What user space starts with -/

/-- The registers the block names itself besides the operands: `$zero`, `$tp`,
`$sp` and `$r21`.  rustc never gives an `in(reg)` operand one of them (nor `$fp`
or `$r31`), and the block needs only these four excluded. -/
def blockRegs : List (Fin 32) := [0, 2, 3, 21]

/-- The registers the block loads from `$sp` at their own index, in its order. -/
def restoredRegs : List (Fin 32) :=
  [1, 2, 4, 5, 6, 7, 8, 9, 10, 11, 12, 13, 14, 15, 16, 17, 18, 19, 20, 21, 22, 23, 24, 25, 26,
   27, 28, 29, 30, 31]

/-- The block: the operand moves, the restoring loads, then `$sp` and `ertn`. -/
theorem enterUspaceBlock_eq (tf kstackTop : Fin 32) :
    enterUspaceBlock tf kstackTop =
      [.move 3 tf, .csrwr 2 ksaveTp, .csrwr 21 ksaveR21, .csrwr kstackTop ksaveKsp] ++
        restoredRegs.map (fun r => .ldD r 3 (r.val.toUInt64 * 8)) ++ [.ldD 3 3 (3*8), .ertn] :=
  rfl

/-- Loads from `$sp` at each register's own index into registers other than `$sp`
write the words of memory above `$sp` and nothing else. -/
theorem foldl_loads (hart : Hart) :
    ∀ {regs : List (Fin 32)}, (3 : Fin 32) ∉ regs →
      (regs.map fun r => Insn.ldD r 3 (r.val.toUInt64 * 8)).foldl Insn.exec hart =
        { hart with gpr := fun r =>
            if r ∈ regs then hart.mem (hart.reg 3 + r.val.toUInt64 * 8) else hart.gpr r }
  | [], _ => by simp
  | r :: regs, notSp => by
    rw [List.mem_cons, not_or] at notSp
    have keepsSp :
        (hart.setReg r (hart.mem (hart.reg 3 + r.val.toUInt64 * 8))).reg 3 = hart.reg 3 := by
      simp [Hart.reg, Function.update_apply, notSp.1]
    rw [List.map_cons, List.foldl_cons, Insn.exec, foldl_loads _ notSp.2, keepsSp]
    congr 1
    funext r'
    by_cases later : r' ∈ regs
    · simp [later]
    · by_cases here : r' = r <;> simp [later, here, Function.update_apply]

/-- What user space starts with, from `kernel`, after `enter_uspace` of `ctx`
with kernel stack top `kstackTop`. -/
structure EntersUser (ctx : UspaceContext) (kstackTop : UInt64) (kernel user : Hart) : Prop where
  regs : ∀ r : Fin 32, r ≠ 0 → user.gpr r = ctx.frame.regs r
  pc : user.pc = ctx.getIp
  plv : user.plv = 3
  ie : user.ie = true
  kernelSp : user.save ksaveKsp = kstackTop
  kernelTp : user.save ksaveTp = kernel.gpr 2
  kernelR21 : user.save ksaveR21 = kernel.gpr 21
  otherSave : ∀ csr, csr ≠ ksaveKsp → csr ≠ ksaveTp → csr ≠ ksaveR21 → user.save csr = kernel.save csr
  mem : user.mem = kernel.mem

/-- Every register but `$zero` and `$sp` is restored at its own index. -/
theorem mem_restoredRegs : ∀ r : Fin 32, r ≠ 0 → r ≠ 3 → r ∈ restoredRegs := by
  decide

/-- For every context held in memory at `selfAddr` and every choice of operand
registers the block does not name, `enter_uspace` starts user space as
`EntersUser` says: the operand moves save the kernel's registers, the loads
restore the frame, and `ertn` drops to PLV 3 at `era`. -/
theorem enterUspace_entersUser (self : UspaceContext) (kstackTop selfAddr : UInt64)
    {tf kstackTopReg : Fin 32} (tfFree : tf ∉ blockRegs) (kstackTopFree : kstackTopReg ∉ blockRegs)
    (distinct : tf ≠ kstackTopReg) (hart : Hart)
    (stored : ∀ i : Fin 32, hart.mem (selfAddr + i.val.toUInt64 * 8) = self.frame.regs i) :
    EntersUser self kstackTop hart (self.enterUspace kstackTop selfAddr tf kstackTopReg hart) := by
  simp only [blockRegs, List.mem_cons, List.mem_singleton, not_or, List.not_mem_nil,
    not_false_eq_true, and_true] at tfFree kstackTopFree
  obtain ⟨tf0, tf2, tf3, tf21⟩ := tfFree
  obtain ⟨k0, k2, k3, k21⟩ := kstackTopFree
  have notSp : (3 : Fin 32) ∉ restoredRegs := by decide
  rw [UspaceContext.enterUspace_eq, enterUspaceBlock_eq, List.foldl_append, List.foldl_append,
    foldl_loads _ notSp]
  generalize operandsDef : List.foldl Insn.exec _ [Insn.move 3 tf, .csrwr 2 ksaveTp,
    .csrwr 21 ksaveR21, .csrwr kstackTopReg ksaveKsp] = operands
  have unfolded := operandsDef.symm
  simp only [List.foldl_cons, List.foldl_nil, Insn.exec] at unfolded
  have sp : operands.gpr 3 = selfAddr := by
    simp [unfolded, Hart.reg, Function.update_apply, Ne.symm k3, tf0, distinct]
  have save : operands.save = Function.update (Function.update (Function.update hart.save
      ksaveTp (hart.gpr 2)) ksaveR21 (hart.gpr 21)) ksaveKsp kstackTop := by
    simp [unfolded, Hart.reg, Function.update_apply, Ne.symm tf2, Ne.symm tf21, Ne.symm k2,
      Ne.symm k21, k0, k2, k3, k21, distinct]
  have unchanged : operands.mem = hart.mem ∧ operands.pplv = 3 ∧ operands.pie = true ∧
      operands.era = self.getIp := by
    simp [unfolded]
  have csrs : ksaveTp ≠ ksaveKsp ∧ ksaveR21 ≠ ksaveKsp ∧ ksaveTp ≠ ksaveR21 := by decide
  constructor
  case regs =>
    intro r nonzero
    by_cases isSp : r = 3
    · subst isSp
      simpa [Insn.exec, Hart.reg, sp, unchanged, notSp] using stored 3
    · simpa [Insn.exec, Hart.reg, Function.update_apply, isSp, nonzero, sp, unchanged,
        mem_restoredRegs r nonzero isSp] using stored r
  case otherSave =>
    intro csr ksp tp r21
    simp [Insn.exec, save, ksp, tp, r21]
  all_goals simp [Insn.exec, save, unchanged, csrs]

/-- `main`'s context, at address 0 with `{tf}` in `$t0` and `{kstack_top}` in `$t1`. -/
theorem enterUspace_new_entersUser :
    (12 : Fin 32) ∉ blockRegs ∧ (13 : Fin 32) ∉ blockRegs ∧ (12 : Fin 32) ≠ 13 ∧
      (∀ i : Fin 32, (UspaceContext.new 0x1000 0x3fff0 2333).frame.regs (Fin.ofNat ((0 + i.val.toUInt64 * 8) / 8).toNat) =
        (UspaceContext.new 0x1000 0x3fff0 2333).frame.regs i) ∧
      EntersUser (.new 0x1000 0x3fff0 2333) 0x8000 ⟨fun _ => 0, fun _ => 0, 0, false, 0, false, 0, 0,
          fun a => (UspaceContext.new 0x1000 0x3fff0 2333).frame.regs (Fin.ofNat (a / 8).toNat)⟩
        ((UspaceContext.new 0x1000 0x3fff0 2333).enterUspace 0x8000 0 12 13
          ⟨fun _ => 0, fun _ => 0, 0, false, 0, false, 0, 0,
            fun a => (UspaceContext.new 0x1000 0x3fff0 2333).frame.regs (Fin.ofNat (a / 8).toNat)⟩) :=
  have stored : ∀ i : Fin 32, (UspaceContext.new 0x1000 0x3fff0 2333).frame.regs
      (Fin.ofNat ((0 + i.val.toUInt64 * 8) / 8).toNat) = (UspaceContext.new 0x1000 0x3fff0 2333).frame.regs i := by
    decide
  ⟨by decide, by decide, by decide, stored,
    enterUspace_entersUser _ _ _ (by decide) (by decide) (by decide) _ stored⟩

end ThCore.Axhal

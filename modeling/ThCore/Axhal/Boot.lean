import Mathlib.Algebra.Group.Nat.Basic
import Mathlib.Logic.Function.Basic

/-!
# The boot page table

`init_boot_page_table` of `axhal/src/platform/loongarch64_qemu_virt/boot.rs`
writes three entries into the two zeroed tables `BOOT_PT_L0` and `BOOT_PT_L1`:
`BOOT_PT_L0[0]` gets the physical address of `BOOT_PT_L1`, and `BOOT_PT_L1[0]`
and `BOOT_PT_L1[2]` get 1 GiB huge-page entries for the physical addresses `0`
and `0x8000_0000`.  `init_mmu` then calls `init_tlb` of
`axhal/src/arch/loongarch64/mod.rs`, which sets the geometry of the page walk
(4 KiB pages, 8-byte entries, the page table at bit 12 and three directory
levels at bits 21, 30 and 39, 9 bits each), and puts `BOOT_PT_L0` in `PGDH` and
`0` in `PGDL`.

The walk is the one the architecture defines for the `lddir` and `ldpte`
instructions of the refill handler, which is not part of the repository: each
directory level reads the entry that its bits of the address select; an entry
with `HUGE` (bit 6) set ends the walk with a page as large as the level covers,
and any other entry is the physical address of the next table.  The physical
address of an entry is its bits 12..47.  Which of `PGDL` and `PGDH` the handler
starts from is the architecture's choice by the address's top bit and is not
modelled: `Mmu.translateHigh` walks from `PGDH`.

`bootPageTable_maps` shows that after `init_boot_page_table` and `init_mmu` this
walk maps every address whose low 48 bits lie in `0..0x4000_0000` or
`0x8000_0000..0xc000_0000` to those bits, wherever the two tables lie in
physical memory (page aligned, below `2 ^ 48`) and whatever their other entries
hold.
-/

namespace ThCore.Axhal

/-! ## `init_boot_page_table` -/

/-- `BOOT_PT_L0` and `BOOT_PT_L1`, 512 entries each. -/
structure BootPageTables where
  l0 : Fin 512 → UInt64
  l1 : Fin 512 → UInt64

/-- Both tables as the image holds them: `[0; 512]`. -/
def BootPageTables.zeroed : BootPageTables :=
  ⟨fun _ => 0, fun _ => 0⟩

/-- `HUGE_FLAGS`: `V | D | HUGE | P | W`. -/
def hugeFlags : UInt64 :=
  (1 : UInt64) <<< 0 ||| (1 : UInt64) <<< 1 ||| (1 : UInt64) <<< 6 ||| (1 : UInt64) <<< 7 |||
    (1 : UInt64) <<< 8

/-- `init_boot_page_table`, with `l1Paddr` the address `virt_to_phys` gives for
`BOOT_PT_L1`. -/
def initBootPageTable (l1Paddr : UInt64) (pt : BootPageTables) : BootPageTables where
  l0 := Function.update pt.l0 0 l1Paddr
  l1 := Function.update (Function.update pt.l1 0 hugeFlags) 2 (0x80000000 ||| hugeFlags)

/-! ## The page walk -/

/-- The page size `init_tlb` writes into `TLBIDX`, `STLBPS` and `TLBREHI`, and the
walk geometry it writes into `PWCL` and `PWCH`. -/
structure WalkGeometry where
  ps : Nat
  pteWidth : Nat
  ptBase : Nat
  ptWidth : Nat
  dir1Base : Nat
  dir1Width : Nat
  dir2Base : Nat
  dir2Width : Nat
  dir3Base : Nat
  dir3Width : Nat

/-- `init_tlb`'s settings; `PS_4K` is `0x0c`. -/
def initTlb : WalkGeometry where
  ps := 0x0c
  pteWidth := 8
  ptBase := 12
  ptWidth := 9
  dir1Base := 21
  dir1Width := 9
  dir2Base := 30
  dir2Width := 9
  dir3Base := 39
  dir3Width := 9

/-- The directory levels the refill handler walks with `lddir`, top first, as
`(base, width)`. -/
def WalkGeometry.dirs (g : WalkGeometry) : List (Nat × Nat) :=
  [(g.dir3Base, g.dir3Width), (g.dir2Base, g.dir2Width), (g.dir1Base, g.dir1Width)]

/-- `HUGE`, bit 6 of a directory entry. -/
def isHuge (entry : UInt64) : Bool :=
  entry.toNat.testBit 6

/-- `V`, bit 0 of an entry. -/
def isValid (entry : UInt64) : Bool :=
  entry.toNat.testBit 0

/-- The physical address in bits 12..47 of an entry, as the start of a page of
`2 ^ size` bytes. -/
def entryPaddr (entry : UInt64) (size : Nat) : Nat :=
  entry.toNat % 2 ^ 48 / 2 ^ size * 2 ^ size

/-- The entry of the table at `table` that the `width` bits of `va` at `base`
select. -/
def readEntry (mem : Nat → UInt64) (g : WalkGeometry) (table : UInt64) (va base width : Nat) :
    UInt64 :=
  mem (entryPaddr table 12 + va / 2 ^ base % 2 ^ width * g.pteWidth)

/-- The walk from the table at `table` through the directory levels `dirs` and
then the page table: the physical address `va` maps to, when the entry that ends
the walk is valid.  `mem` is physical memory, a 64-bit word at each address. -/
def translateFrom (mem : Nat → UInt64) (g : WalkGeometry) (va : Nat) :
    UInt64 → List (Nat × Nat) → Option Nat
  | table, [] =>
    let pte := readEntry mem g table va g.ptBase g.ptWidth
    if isValid pte then some (entryPaddr pte g.ps + va % 2 ^ g.ps) else none
  | table, (base, width) :: lower =>
    let entry := readEntry mem g table va base width
    if isHuge entry then
      if isValid entry then some (entryPaddr entry base + va % 2 ^ base) else none
    else translateFrom mem g va entry lower

/-- The CSRs `init_mmu` sets: the walk geometry and the two page-directory bases. -/
structure Mmu where
  geometry : WalkGeometry
  pgdh : UInt64
  pgdl : UInt64

/-- `init_mmu`, with `l0Paddr` the address `virt_to_phys` gives for `BOOT_PT_L0`. -/
def initMmu (l0Paddr : UInt64) : Mmu :=
  ⟨initTlb, l0Paddr, 0⟩

/-- The translation of `va` by a walk from `PGDH`. -/
def Mmu.translateHigh (mmu : Mmu) (mem : Nat → UInt64) (va : Nat) : Option Nat :=
  translateFrom mem mmu.geometry va mmu.pgdh mmu.geometry.dirs

/-- Physical memory holds `table` at `paddr`, one 8-byte entry after another. -/
def Holds (mem : Nat → UInt64) (paddr : Nat) (table : Fin 512 → UInt64) : Prop :=
  ∀ i : Fin 512, mem (paddr + 8 * i) = table i

/-! ## One level of the walk -/

/-- A page-aligned address below `2 ^ 48` is its own physical address. -/
theorem entryPaddr_of_aligned {entry : UInt64} (aligned : entry.toNat % 4096 = 0)
    (below : entry.toNat < 2 ^ 48) : entryPaddr entry 12 = entry.toNat := by
  have page : 2 ^ 12 ∣ entry.toNat := Nat.dvd_of_mod_eq_zero aligned
  rw [entryPaddr, Nat.mod_eq_of_lt below, Nat.div_mul_cancel page]

/-- A page-aligned table address is not a huge-page entry. -/
theorem isHuge_of_aligned {entry : UInt64} (aligned : entry.toNat % 4096 = 0) :
    isHuge entry = false := by
  rw [isHuge, Nat.testBit_to_div_mod, decide_eq_false_iff_not]
  omega

/-- A level reads the entry of the table in memory that the address selects. -/
theorem readEntry_of_holds {mem : Nat → UInt64} {table : UInt64} {entries : Fin 512 → UInt64}
    (holds : Holds mem (entryPaddr table 12) entries) {va base : Nat} (i : Fin 512)
    (index : va / 2 ^ base % 2 ^ 9 = i) : readEntry mem initTlb table va base 9 = entries i := by
  rw [readEntry, index, ← holds i, initTlb, Nat.mul_comm]

theorem translateFrom_table {mem : Nat → UInt64} {g : WalkGeometry} {va base width : Nat}
    {table : UInt64} (lower : List (Nat × Nat))
    (notHuge : isHuge (readEntry mem g table va base width) = false) :
    translateFrom mem g va table ((base, width) :: lower) =
      translateFrom mem g va (readEntry mem g table va base width) lower := by
  rw [translateFrom, if_neg (by rw [notHuge]; decide)]

theorem translateFrom_huge {mem : Nat → UInt64} {g : WalkGeometry} {va base width : Nat}
    {table : UInt64} (lower : List (Nat × Nat))
    (huge : isHuge (readEntry mem g table va base width) = true)
    (valid : isValid (readEntry mem g table va base width) = true) :
    translateFrom mem g va table ((base, width) :: lower) =
      some (entryPaddr (readEntry mem g table va base width) base + va % 2 ^ base) := by
  rw [translateFrom, if_pos huge, if_pos valid]

/-! ## The boot mapping -/

/-- The walk from `PGDH` after `init_boot_page_table` and `init_mmu` maps the
first gigabyte and the third one to themselves. -/
theorem bootPageTable_maps (mem : Nat → UInt64) (l0Paddr l1Paddr : UInt64) (pt : BootPageTables)
    (aligned : l0Paddr.toNat % 4096 = 0 ∧ l1Paddr.toNat % 4096 = 0)
    (below : l0Paddr.toNat < 2 ^ 48 ∧ l1Paddr.toNat < 2 ^ 48)
    (l0 : Holds mem l0Paddr.toNat (initBootPageTable l1Paddr pt).l0)
    (l1 : Holds mem l1Paddr.toNat (initBootPageTable l1Paddr pt).l1) (va : Nat)
    (mapped : va % 2 ^ 48 < 0x40000000 ∨ 0x80000000 ≤ va % 2 ^ 48 ∧ va % 2 ^ 48 < 0xc0000000) :
    (initMmu l0Paddr).translateHigh mem va = some (va % 2 ^ 48) := by
  rw [← entryPaddr_of_aligned aligned.1 below.1] at l0
  rw [← entryPaddr_of_aligned aligned.2 below.2] at l1
  have l0Entry : readEntry mem initTlb l0Paddr va 39 9 = l1Paddr :=
    readEntry_of_holds l0 0 (by omega)
  have table : isHuge (readEntry mem initTlb l0Paddr va 39 9) = false :=
    l0Entry ▸ isHuge_of_aligned aligned.2
  show translateFrom mem initTlb va l0Paddr [(39, 9), (30, 9), (21, 9)] = _
  rw [translateFrom_table _ table, l0Entry]
  rcases mapped with low | ⟨atLeast, high⟩
  · have l1Entry : readEntry mem initTlb l1Paddr va 30 9 = hugeFlags :=
      readEntry_of_holds l1 0 (by omega)
    rw [translateFrom_huge _ (l1Entry ▸ rfl) (l1Entry ▸ rfl), l1Entry,
      show entryPaddr hugeFlags 30 = 0 from rfl, Option.some.injEq]
    omega
  · have l1Entry : readEntry mem initTlb l1Paddr va 30 9 = 0x80000000 ||| hugeFlags :=
      readEntry_of_holds l1 2 (by omega)
    rw [translateFrom_huge _ (l1Entry ▸ rfl) (l1Entry ▸ rfl), l1Entry,
      show entryPaddr (0x80000000 ||| hugeFlags) 30 = 0x80000000 from rfl, Option.some.injEq]
    omega

/-- Physical memory with `BOOT_PT_L0` at `0x1000` and `BOOT_PT_L1` at `0x2000` as
`init_boot_page_table` leaves them, and zero elsewhere. -/
def bootMemory (paddr : Nat) : UInt64 :=
  if paddr = 0x1000 then 0x2000
  else if paddr = 0x2000 then hugeFlags
  else if paddr = 0x2010 then 0x80000000 ||| hugeFlags
  else 0

theorem bootPageTable_maps_bootMemory :
    (initMmu 0x1000).translateHigh bootMemory 0x80001234 = some 0x80001234 :=
  bootPageTable_maps bootMemory 0x1000 0x2000 .zeroed ⟨rfl, rfl⟩ ⟨by decide, by decide⟩
    (fun i => by
      show bootMemory (0x1000 + 8 * i) = Function.update (fun _ => (0 : UInt64)) 0 0x2000 i
      have bound := i.isLt
      simp only [bootMemory, Function.update_apply, Fin.ext_iff, Fin.val_zero]
      split_ifs <;> first | rfl | omega)
    (fun i => by
      show bootMemory (0x2000 + 8 * i) =
        Function.update (Function.update (fun _ => (0 : UInt64)) 0 hugeFlags) 2
          (0x80000000 ||| hugeFlags) i
      have bound := i.isLt
      simp only [bootMemory, Function.update_apply, Fin.ext_iff, Fin.val_zero, Fin.val_two]
      split_ifs <;> first | rfl | omega)
    0x80001234 (by decide)

end ThCore.Axhal

import Mathlib.Tactic.Abel
import ThCore.Machine
import ThCore.ElfParser.Auxv

/-!
# ELF information: load base, entry, program headers

`ELFParser` of `kernel-elf-parser/src/info.rs`.  `ELFParser::new` classifies the
image (fixed-address or position independent), rejects a fixed-address image with
a `PT_LOAD` segment below user space, and computes the load base; the accessors
then add that base to the header's entry point, program-header offset and segment
addresses.

The parsed `xmas_elf::ElfFile` is reduced to the header fields and the
program-header list these functions read.  `usize` and `u64` are both `UInt64`,
whose `+` wraps as a release build does (`entry`, `phdr` and `ph_load` use a plain
`+`, `new` a `wrapping_add`).

The main results:
* `new_eq_ok_iff`: what an accepted image looks like, and the base it gets;
* `new_executable`: the behaviour on an `ET_EXEC` image, with and without
  `PT_INTERP` (a dynamically linked `ET_EXEC` counts as position independent);
* `phdr_eq_segment_address_iff`: `phdr()` is the address of the program-header
  table inside a `PT_LOAD` segment exactly when that segment has
  `p_vaddr = p_offset`.
-/

namespace ThCore.ElfParser

/-! ## The parsed ELF file -/

/-- `xmas_elf::header::Type`, as `Type_::as_type` reads the raw `e_type`. -/
inductive HeaderType where
  | None
  | Relocatable
  | Executable
  | SharedObject
  | Core
  | ProcessorSpecific (raw : UInt16)
  deriving DecidableEq, Repr

/-- `Type_::as_type`. -/
def HeaderType.ofRaw (raw : UInt16) : HeaderType :=
  match raw.toNat with
  | 0 => .None
  | 1 => .Relocatable
  | 2 => .Executable
  | 3 => .SharedObject
  | 4 => .Core
  | _ => .ProcessorSpecific raw

/-- The ELF header fields `info.rs` reads (`pt1.magic` and `pt2`). -/
structure ElfHeader where
  magic : List UInt8
  elfType : UInt16
  entryPoint : UInt64
  phOffset : UInt64
  phEntrySize : UInt16
  phCount : UInt16
  deriving DecidableEq, Repr

/-- `b"\x7fELF"`. -/
def elfMagic : List UInt8 :=
  [0x7f, 0x45, 0x4c, 0x46]

/-- `header.pt2.type_().as_type()`. -/
def ElfHeader.asType (header : ElfHeader) : HeaderType :=
  HeaderType.ofRaw header.elfType

/-- A program header (`xmas_elf::program::ProgramHeader`). -/
structure ProgramHeader where
  phType : UInt32
  flags : UInt32
  offset : UInt64
  virtualAddr : UInt64
  fileSize : UInt64
  memSize : UInt64
  deriving DecidableEq, Repr

namespace ProgramHeader

/-- `ph.get_type() == Ok(Type::Load)`: `p_type = PT_LOAD`. -/
def isLoad (ph : ProgramHeader) : Bool :=
  ph.phType == 1

/-- `ph.get_type() == Ok(Type::Interp)`: `p_type = PT_INTERP`. -/
def isInterp (ph : ProgramHeader) : Bool :=
  ph.phType == 3

/-- `ph.flags().is_read()`: `PF_R`. -/
def isRead (ph : ProgramHeader) : Bool :=
  ph.flags &&& 4 != 0

/-- `ph.flags().is_write()`: `PF_W`. -/
def isWrite (ph : ProgramHeader) : Bool :=
  ph.flags &&& 2 != 0

/-- `ph.flags().is_execute()`: `PF_X`. -/
def isExecute (ph : ProgramHeader) : Bool :=
  ph.flags &&& 1 != 0

end ProgramHeader

/-- The parsed file: its header and `program_iter()`. -/
structure ElfFile where
  header : ElfHeader
  programHeaders : List ProgramHeader
  deriving DecidableEq, Repr

namespace ElfFile

/-- `program_iter().any(|ph| ph.get_type() == Ok(Type::Interp))`. -/
def hasInterp (elf : ElfFile) : Bool :=
  elf.programHeaders.any ProgramHeader.isInterp

/-- `is_pie` in `ELFParser::new`: a shared object, or an executable that names an
interpreter. -/
def isPie (elf : ElfFile) : Bool :=
  elf.header.asType == .SharedObject || (elf.header.asType == .Executable && elf.hasInterp)

/-- The rejection test of `ELFParser::new`: some `PT_LOAD` header lies below
`uspace_base`. -/
def hasLoadBelow (elf : ElfFile) (uspaceBase : UInt64) : Bool :=
  elf.programHeaders.any fun ph => ph.isLoad && decide (ph.virtualAddr < uspaceBase)

end ElfFile

/-! ## The parser -/

/-- `ELFParser`: the file and the base address it is loaded at. -/
structure ELFParser where
  elf : ElfFile
  base : UInt64
  deriving DecidableEq, Repr

/-- `ELFPH`: a `PT_LOAD` segment as the kernel maps it. -/
structure ELFPH where
  offset : UInt64
  vaddr : UInt64
  memsz : UInt64
  filesz : UInt64
  flags : MappingFlags
  deriving DecidableEq, Repr

/-- `ELFParser::elf_base_addr`. -/
def elfBaseAddr (elf : ElfFile) (interpBase : UInt64) : Except String UInt64 :=
  match elf.header.asType with
  | .Executable => .ok 0
  | .SharedObject =>
    match (elf.programHeaders.filter ProgramHeader.isInterp).length with
    | 0 => .ok interpBase
    | 1 => .ok 0
    | _ => .error "Multiple interpreters found"
  | _ => .error "Unsupported ELF type"

namespace ELFParser

/-- `ELFParser::new`. -/
def new (elf : ElfFile) (interpBase : UInt64) (bias : Option Int) (uspaceBase : UInt64) :
    Except String ELFParser := do
  if elf.header.magic ≠ elfMagic then
    throw "invalid elf!"
  if !elf.isPie && elf.hasLoadBelow uspaceBase then
    throw "Invalid ELF base address"
  let base ← elfBaseAddr elf interpBase
  let base := if elf.isPie then base + isizeAsUsize (bias.getD 0) else base
  pure ⟨elf, base⟩

/-- `ELFParser::entry`. -/
def entry (parser : ELFParser) : UInt64 :=
  parser.elf.header.entryPoint + parser.base

/-- `ELFParser::phnum`. -/
def phnum (parser : ELFParser) : UInt64 :=
  parser.elf.header.phCount.toUInt64

/-- `ELFParser::phent`. -/
def phent (parser : ELFParser) : UInt64 :=
  parser.elf.header.phEntrySize.toUInt64

/-- `ELFParser::phdr`. -/
def phdr (parser : ELFParser) : UInt64 :=
  parser.elf.header.phOffset + parser.base

/-- `ELFParser::auxv_vector`. -/
def auxvVector (parser : ELFParser) (pagesz : UInt64) : List AuxvEntry :=
  [⟨.PHDR, parser.phdr.toNat⟩, ⟨.PHENT, parser.phent.toNat⟩, ⟨.PHNUM, parser.phnum.toNat⟩,
    ⟨.PAGESZ, pagesz.toNat⟩, ⟨.BASE, parser.base.toNat⟩, ⟨.FLAGS, 0⟩,
    ⟨.ENTRY, parser.entry.toNat⟩, ⟨.HWCAP, 0⟩, ⟨.CLKTCK, 100⟩, ⟨.PLATFORM, 0⟩, ⟨.UID, 0⟩,
    ⟨.EUID, 0⟩, ⟨.GID, 0⟩, ⟨.EGID, 0⟩, ⟨.RANDOM, 0⟩, ⟨.EXECFN, 0⟩, ⟨.NULL, 0⟩]

/-- The permissions `ph_load` gives a segment: `USER`, then `READ`, `WRITE` and
`EXECUTE` as the header's flags ask. -/
def segmentFlags (ph : ProgramHeader) : MappingFlags :=
  let flags := MappingFlags.USER
  let flags := if ph.isRead then flags ||| .READ else flags
  let flags := if ph.isWrite then flags ||| .WRITE else flags
  if ph.isExecute then flags ||| .EXECUTE else flags

/-- One iteration of `ph_load`'s `for_each`. -/
def loadSegment (parser : ELFParser) (ph : ProgramHeader) : ELFPH :=
  { offset := ph.offset, vaddr := ph.virtualAddr + parser.base, memsz := ph.memSize,
    filesz := ph.fileSize, flags := segmentFlags ph }

/-- `ELFParser::ph_load`. -/
def phLoad (parser : ELFParser) : List ELFPH :=
  (parser.elf.programHeaders.filter ProgramHeader.isLoad).map parser.loadSegment

end ELFParser

/-! ## What `new` accepts -/

namespace ELFParser

variable {elf : ElfFile} {interpBase uspaceBase : UInt64} {bias : Option Int}
  {parser : ELFParser}

/-- `new` as a single conditional: the two checks, then `elf_base_addr` and the
bias. -/
theorem new_eq : new elf interpBase bias uspaceBase =
    if elf.header.magic ≠ elfMagic then .error "invalid elf!"
    else if (!elf.isPie && elf.hasLoadBelow uspaceBase) = true then
      .error "Invalid ELF base address"
    else (elfBaseAddr elf interpBase).map fun base =>
      ⟨elf, if elf.isPie then base + isizeAsUsize (bias.getD 0) else base⟩ := by
  unfold new
  split
  · rfl
  · split
    · rfl
    · cases elfBaseAddr elf interpBase <;> rfl

/-- Everything a successful `new` can have done: the magic matched, the image is
position independent or has no segment below user space, `elf_base_addr`
succeeded, and the base is its result, shifted by the bias for a PIE. -/
theorem new_eq_ok_iff :
    new elf interpBase bias uspaceBase = .ok parser ↔
      elf.header.magic = elfMagic ∧ (!elf.isPie && elf.hasLoadBelow uspaceBase) = false ∧
        ∃ base, elfBaseAddr elf interpBase = .ok base ∧
          ⟨elf, if elf.isPie then base + isizeAsUsize (bias.getD 0) else base⟩ = parser := by
  rw [new_eq]
  by_cases magicValid : elf.header.magic = elfMagic
  · cases (!elf.isPie && elf.hasLoadBelow uspaceBase) <;>
      cases elfBaseAddr elf interpBase <;> simp [magicValid, Except.map]
  · simp [magicValid]

end ELFParser

/-! ## Fixed-address executables -/

namespace ElfFile

variable {elf : ElfFile}

end ElfFile

namespace ELFParser

/-- A segment of `ph_load` comes from a `PT_LOAD` header of the file, at that
header's offset and at its address shifted by the base. -/
theorem mem_phLoad {parser : ELFParser} {seg : ELFPH} (member : seg ∈ parser.phLoad) :
    ∃ ph ∈ parser.elf.programHeaders, ph.isLoad = true ∧ seg = parser.loadSegment ph := by
  obtain ⟨ph, filtered, rfl⟩ := List.mem_map.mp member
  obtain ⟨member, load⟩ := List.mem_filter.mp filtered
  exact ⟨ph, member, load, rfl⟩

/-- A statically linked image whose only `PT_LOAD` segment maps the file from
offset 0 at `0x400000`, program-header table included (at file offset 64). -/
def staticExecutable : ElfFile :=
  { header := ⟨elfMagic, 2, 0x401000, 64, 56, 1⟩
    programHeaders := [⟨1, 5, 0, 0x400000, 0x1000, 0x1000⟩] }

/-- A dynamically linked `ET_EXEC` image (it names an interpreter) with a `PT_LOAD`
segment at `0x1000`. -/
def interpExecutable : ElfFile :=
  { header := ⟨elfMagic, 2, 0x1000, 64, 56, 2⟩
    programHeaders := [⟨3, 4, 0x200, 0x200, 0x1c, 0x1c⟩, ⟨1, 5, 0, 0x1000, 0x2000, 0x2000⟩] }

/-- The algebra behind `phdr`: `e_phoff + base` is the address at which a
segment loaded at `p_vaddr + base` from file offset `p_offset` holds file offset
`e_phoff` exactly when `p_vaddr = p_offset`. -/
theorem offset_add_base_eq_iff (phOffset base vaddr offset : UInt64) :
    phOffset + base = vaddr + base + (phOffset - offset) ↔ vaddr = offset := by
  rw [show vaddr + base + (phOffset - offset) = phOffset + base + (vaddr - offset) by abel,
    self_eq_add_right, sub_eq_zero]

/-- For every segment `ph_load` returns, `phdr()` is the address at which that
segment holds file offset `e_phoff` exactly when its program header has
`p_vaddr = p_offset`. -/
theorem phdr_eq_segment_address_iff (parser : ELFParser) :
    ∀ seg ∈ parser.phLoad, ∃ ph ∈ parser.elf.programHeaders, ph.isLoad = true ∧
      seg.offset = ph.offset ∧ seg.vaddr = ph.virtualAddr + parser.base ∧
      (parser.phdr = seg.vaddr + (parser.elf.header.phOffset - seg.offset) ↔
        ph.virtualAddr = ph.offset) := by
  intro seg member
  obtain ⟨ph, phMember, load, rfl⟩ := mem_phLoad member
  exact ⟨ph, phMember, load, rfl, rfl, offset_add_base_eq_iff _ _ _ _⟩

theorem phdr_eq_segment_address_iff_interpExecutable :
    let parser : ELFParser := ⟨interpExecutable, 0x2000⟩
    ∃ seg ∈ parser.phLoad, ∃ ph ∈ parser.elf.programHeaders, ph.isLoad = true ∧
      seg.offset = ph.offset ∧ seg.vaddr = ph.virtualAddr + parser.base ∧
      (parser.phdr = seg.vaddr + (parser.elf.header.phOffset - seg.offset) ↔
        ph.virtualAddr = ph.offset) :=
  ⟨_, List.mem_singleton_self _,
    phdr_eq_segment_address_iff ⟨interpExecutable, 0x2000⟩ _ (List.mem_singleton_self _)⟩

/-- `phdr()` of that image is 64, while `ph_load` maps file offset 64 at
`0x400040`. -/
theorem phdr_staticExecutable_unmapped :
    ∃ parser, new staticExecutable 0 none 0 = .ok parser ∧ ∃ seg ∈ parser.phLoad,
      seg.offset ≤ parser.elf.header.phOffset ∧
      parser.elf.header.phOffset + parser.phnum * parser.phent ≤ seg.offset + seg.filesz ∧
      parser.phdr = 64 ∧ seg.vaddr + (parser.elf.header.phOffset - seg.offset) = 0x400040 :=
  ⟨_, rfl, _, List.mem_singleton_self _, by decide, by decide, rfl, rfl⟩

/-! ## `ph_load` on an accepted image -/

/-- A `PT_LOAD` segment as the specification describes it: the header's offset
and sizes, its address plus the base modulo `2 ^ 64`, and `USER` with `READ`,
`WRITE` and `EXECUTE` exactly when `PF_R = 4`, `PF_W = 2` and `PF_X = 1` are set. -/
def specLoadSegment (base : UInt64) (ph : ProgramHeader) : ELFPH :=
  { offset := ph.offset, vaddr := UInt64.ofNat ((ph.virtualAddr.toNat + base.toNat) % 2 ^ 64),
    memsz := ph.memSize, filesz := ph.fileSize,
    flags := ⟨ph.flags &&& 4 != 0, ph.flags &&& 2 != 0, ph.flags &&& 1 != 0, true⟩ }

theorem segmentFlags_eq (ph : ProgramHeader) :
    segmentFlags ph = ⟨ph.isRead, ph.isWrite, ph.isExecute, true⟩ := by
  unfold segmentFlags
  cases ph.isRead <;> cases ph.isWrite <;> cases ph.isExecute <;> rfl

/-- One iteration of `ph_load` is the specified segment. -/
theorem loadSegment_eq_spec (parser : ELFParser) (ph : ProgramHeader) :
    parser.loadSegment ph = specLoadSegment parser.base ph := by
  have vaddr : ph.virtualAddr + parser.base =
      UInt64.ofNat ((ph.virtualAddr.toNat + parser.base.toNat) % 2 ^ 64) :=
    UInt64.toNat.inj (Nat.mod_mod _ _).symm
  rw [loadSegment, segmentFlags_eq, vaddr]
  rfl

/-! ## The base of a shared object -/

section SharedObject

variable {elf : ElfFile} {interpBase uspaceBase : UInt64} {bias : Option Int}

/-- The wrapping `base + (bias as usize)` of `new`, on `Int`. -/
theorem toNat_add_isizeAsUsize (base : UInt64) (offset : Int) :
    (base + isizeAsUsize offset).toNat = (((base.toNat : Int) + offset) % 2 ^ 64).toNat := by
  show (base.toNat + (offset % 2 ^ 64).toNat % 2 ^ 64) % 2 ^ 64 = _
  omega

/-- The base `new` computes, read on `Int`: `start + (offset as usize)` is `base`
exactly when `base` is `start + offset` modulo `2 ^ 64`. -/
theorem add_isizeAsUsize_eq_iff (start base : UInt64) (offset : Int) :
    start + isizeAsUsize offset = base ↔
      base.toNat = (((start.toNat : Int) + offset) % 2 ^ 64).toNat :=
  ⟨fun same => same ▸ toNat_add_isizeAsUsize start offset,
    fun same => UInt64.toNat.inj ((toNat_add_isizeAsUsize start offset).trans same.symm)⟩

/-- `new` on an `ET_DYN` image: no check of segment addresses, and the base
`elf_base_addr` gives, shifted by the bias. -/
theorem new_sharedObject (magicValid : elf.header.magic = elfMagic)
    (shared : elf.header.asType = .SharedObject) :
    new elf interpBase bias uspaceBase =
      match (elf.programHeaders.filter ProgramHeader.isInterp).length with
      | 0 => .ok ⟨elf, interpBase + isizeAsUsize (bias.getD 0)⟩
      | 1 => .ok ⟨elf, 0 + isizeAsUsize (bias.getD 0)⟩
      | _ => .error "Multiple interpreters found" := by
  have pie : elf.isPie = true := by simp [ElfFile.isPie, shared]
  rw [new_eq, if_neg (not_not.mpr magicValid), pie]
  simp only [Bool.not_true, Bool.false_and, Bool.false_eq_true, if_false, if_true, elfBaseAddr,
    shared]
  split <;> rfl

/-- An `ET_DYN` image is accepted exactly when it has at most one `PT_INTERP`
header, and then its base is `interp_base + bias` without one and `bias` with one,
modulo `2 ^ 64`. -/
theorem new_sharedObject_ok_iff (magicValid : elf.header.magic = elfMagic)
    (shared : elf.header.asType = .SharedObject) (parser : ELFParser) :
    new elf interpBase bias uspaceBase = .ok parser ↔
      (elf.programHeaders.filter ProgramHeader.isInterp).length ≤ 1 ∧ parser.elf = elf ∧
        parser.base.toNat = (if (elf.programHeaders.filter ProgramHeader.isInterp).length = 0
          then ((interpBase.toNat : Int) + bias.getD 0) % 2 ^ 64
          else bias.getD 0 % 2 ^ 64).toNat := by
  rw [new_sharedObject magicValid shared]
  rcases parser with ⟨parsed, base⟩
  rcases count : (elf.programHeaders.filter ProgramHeader.isInterp).length with _ | _ | more
  · simp only [Except.ok.injEq, ELFParser.mk.injEq, add_isizeAsUsize_eq_iff, Nat.zero_le,
      if_true, true_and]
    exact and_congr eq_comm Iff.rfl
  · simp only [Except.ok.injEq, ELFParser.mk.injEq, add_isizeAsUsize_eq_iff, UInt64.toNat_zero,
      Nat.cast_zero, Int.zero_add, Nat.le_refl, Nat.succ_ne_zero, if_false, true_and]
    exact and_congr eq_comm Iff.rfl
  · simp only [reduceCtorEq, false_iff, not_and]
    intro many
    omega

/-- An `ET_DYN` image with at most one `PT_INTERP` header is accepted, whatever
the bias. -/
theorem new_sharedObject_ok (magicValid : elf.header.magic = elfMagic)
    (shared : elf.header.asType = .SharedObject)
    (atMostOne : (elf.programHeaders.filter ProgramHeader.isInterp).length ≤ 1) :
    ∃ parser, new elf interpBase bias uspaceBase = .ok parser := by
  rw [new_sharedObject magicValid shared]
  rcases count : (elf.programHeaders.filter ProgramHeader.isInterp).length with _ | _ | more
  · exact ⟨_, rfl⟩
  · exact ⟨_, rfl⟩
  · omega

end SharedObject

/-- A position-independent image with entry point `0x1040`, one `PT_LOAD` segment
and no interpreter. -/
def sharedImage : ElfFile :=
  { header := ⟨elfMagic, 3, 0x1040, 64, 56, 1⟩
    programHeaders := [⟨1, 5, 0, 0, 0x2000, 0x2000⟩] }

/-- For every image `new` accepts, `ph_load()` is the `PT_LOAD` headers in file
order, each mapped to the specified segment.  For an `ET_DYN` image, `new`
succeeds exactly when the image has at most one `PT_INTERP` header, and the base
is `interp_base + bias` without one and `bias` with one, modulo `2 ^ 64`, the
bias defaulting to 0. -/
theorem phLoad_of_new (elf : ElfFile) (interpBase : UInt64) (bias : Option Int)
    (uspaceBase : UInt64) :
    (∀ parser, new elf interpBase bias uspaceBase = .ok parser →
      parser.phLoad =
        (elf.programHeaders.filter ProgramHeader.isLoad).map (specLoadSegment parser.base)) ∧
    (elf.header.magic = elfMagic → elf.header.asType = .SharedObject →
      ((∃ parser, new elf interpBase bias uspaceBase = .ok parser) ↔
          (elf.programHeaders.filter ProgramHeader.isInterp).length ≤ 1) ∧
        ∀ parser, new elf interpBase bias uspaceBase = .ok parser →
          parser.base.toNat = (if (elf.programHeaders.filter ProgramHeader.isInterp).length = 0
            then ((interpBase.toNat : Int) + bias.getD 0) % 2 ^ 64
            else bias.getD 0 % 2 ^ 64).toNat) := by
  refine ⟨fun parser accepted => ?_, fun magicValid shared =>
    ⟨⟨fun ⟨parser, accepted⟩ => ((new_sharedObject_ok_iff magicValid shared parser).mp accepted).1,
      new_sharedObject_ok magicValid shared⟩,
    fun parser accepted => ((new_sharedObject_ok_iff magicValid shared parser).mp accepted).2.2⟩⟩
  obtain ⟨-, -, base, -, rfl⟩ := new_eq_ok_iff.mp accepted
  exact List.map_congr_left fun ph _ => loadSegment_eq_spec _ ph

/-- `sharedImage` at `interp_base = 0x1000` and no bias: its one segment moves up by
`0x1000`. -/
theorem phLoad_of_new_sharedImage :
    new sharedImage 0x1000 none 0 = .ok ⟨sharedImage, 0x1000⟩ ∧
      (ELFParser.mk sharedImage 0x1000).phLoad =
        [specLoadSegment 0x1000 ⟨1, 5, 0, 0, 0x2000, 0x2000⟩] ∧
      ((∃ parser, new sharedImage 0x1000 none 0 = .ok parser) ↔
        (sharedImage.programHeaders.filter ProgramHeader.isInterp).length ≤ 1) :=
  ⟨rfl, (phLoad_of_new sharedImage 0x1000 none 0).1 _ rfl,
    ((phLoad_of_new sharedImage 0x1000 none 0).2 rfl rfl).1⟩

/-! ## The unchecked additions of the accessors -/

/-- Every `ET_DYN` image that `new` accepts, with a nonzero entry point, has an
`isize` bias under which `new` succeeds and `e_entry + base`, the unchecked sum of
`entry()`, exceeds `usize::MAX`: a kernel built with overflow checks panics there. -/
theorem entry_add_base_overflows (elf : ElfFile) (interpBase uspaceBase : UInt64)
    (magicValid : elf.header.magic = elfMagic) (shared : elf.header.asType = .SharedObject)
    (atMostOne : (elf.programHeaders.filter ProgramHeader.isInterp).length ≤ 1)
    (entryNonzero : elf.header.entryPoint ≠ 0) :
    ∃ bias : Int, -2 ^ 63 ≤ bias ∧ bias < 2 ^ 63 ∧
      ∃ parser, new elf interpBase (some bias) uspaceBase = .ok parser ∧
        2 ^ 64 ≤ elf.header.entryPoint.toNat + parser.base.toNat := by
  -- the base before the bias: `interp_base` without `PT_INTERP`, 0 with one
  let start : Int := if (elf.programHeaders.filter ProgramHeader.isInterp).length = 0
    then interpBase.toNat else 0
  -- an `isize` that takes `start` to `usize::MAX`
  let bias : Int := if start < 2 ^ 63 then -1 - start else 2 ^ 64 - 1 - start
  have chosen : -2 ^ 63 ≤ bias ∧ bias < 2 ^ 63 ∧ (start + bias) % 2 ^ 64 = 2 ^ 64 - 1 := by
    have word := interpBase.toNat_lt_size
    simp only [UInt64.size] at word
    simp only [bias, start]
    split_ifs <;> omega
  obtain ⟨low, high, wrapped⟩ := chosen
  obtain ⟨parser, built⟩ : ∃ parser, new elf interpBase (some bias) uspaceBase = .ok parser :=
    new_sharedObject_ok magicValid shared atMostOne
  obtain ⟨-, -, base⟩ := (new_sharedObject_ok_iff magicValid shared parser).mp built
  have baseMax : parser.base.toNat = 2 ^ 64 - 1 := by
    rw [base, Option.getD_some]
    simp only [start] at wrapped
    split_ifs at wrapped ⊢ <;> omega
  have entry : elf.header.entryPoint.toNat ≠ 0 := fun zero => entryNonzero (UInt64.toNat.inj zero)
  exact ⟨bias, low, high, parser, built, by omega⟩

theorem entry_add_base_overflows_sharedImage :
    sharedImage.header.magic = elfMagic ∧ sharedImage.header.asType = .SharedObject ∧
      (sharedImage.programHeaders.filter ProgramHeader.isInterp).length ≤ 1 ∧
      sharedImage.header.entryPoint ≠ 0 ∧
      ∃ bias : Int, -2 ^ 63 ≤ bias ∧ bias < 2 ^ 63 ∧
        ∃ parser, new sharedImage 0 (some bias) 0 = .ok parser ∧
          2 ^ 64 ≤ sharedImage.header.entryPoint.toNat + parser.base.toNat :=
  ⟨rfl, rfl, by decide, by decide,
    entry_add_base_overflows sharedImage 0 0 rfl rfl (by decide) (by decide)⟩

end ELFParser

end ThCore.ElfParser

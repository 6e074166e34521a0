import Mathlib.Data.UInt

/-!
# Machine types shared by the ELF loader and the HAL

The `isize as usize` cast, used for the ELF load bias and for a syscall's return
value, and `page_table_entry::MappingFlags`, the permission set that both the ELF
loader (`ph_load`) and the page-fault path of the trap handler build.  Only the
four flag bits those two read or set are kept: `READ`, `WRITE`, `EXECUTE` and
`USER`.
-/

namespace ThCore

/-- `x as usize` for an `isize` `x`: its two's-complement bits. -/
def isizeAsUsize (x : Int) : UInt64 :=
  UInt64.ofNat (x % 2 ^ 64).toNat

/-! ## Mapping flags -/

/-- A set of `MappingFlags` bits. -/
structure MappingFlags where
  read : Bool
  write : Bool
  execute : Bool
  user : Bool
  deriving DecidableEq, Repr

namespace MappingFlags

/-- The empty set. -/
def empty : MappingFlags :=
  ⟨false, false, false, false⟩

/-- `MappingFlags::READ`. -/
def READ : MappingFlags :=
  { empty with read := true }

/-- `MappingFlags::WRITE`. -/
def WRITE : MappingFlags :=
  { empty with write := true }

/-- `MappingFlags::EXECUTE`. -/
def EXECUTE : MappingFlags :=
  { empty with execute := true }

/-- `MappingFlags::USER`. -/
def USER : MappingFlags :=
  { empty with user := true }

/-- `flags | other`. -/
def union (flags other : MappingFlags) : MappingFlags :=
  ⟨flags.read || other.read, flags.write || other.write, flags.execute || other.execute,
    flags.user || other.user⟩

instance : OrOp MappingFlags :=
  ⟨union⟩

@[simp] theorem or_read (flags other : MappingFlags) :
    (flags ||| other).read = (flags.read || other.read) := rfl

@[simp] theorem or_write (flags other : MappingFlags) :
    (flags ||| other).write = (flags.write || other.write) := rfl

@[simp] theorem or_execute (flags other : MappingFlags) :
    (flags ||| other).execute = (flags.execute || other.execute) := rfl

@[simp] theorem or_user (flags other : MappingFlags) :
    (flags ||| other).user = (flags.user || other.user) := rfl

end MappingFlags

end ThCore

import Mathlib.Algebra.Group.Nat.Basic
import Mathlib.Data.List.Basic

/-!
# Auxiliary vector entries

`kernel-elf-parser/src/auxv.rs`.  An `AuxvEntry` is a `#[repr(C)]` pair of an
`AuxvType` (itself `#[repr(usize)]`) and a `usize` value, so an auxiliary vector
of `K` entries is read by `init_stack` as `2 * K` machine words: the type's
discriminant followed by the value, entry after entry.
-/

namespace ThCore.ElfParser

/-- `AuxvType`, with the discriminants of its `#[repr(usize)]` declaration. -/
inductive AuxvType where
  | NULL | IGNORE | EXECFD | PHDR | PHENT | PHNUM | PAGESZ | BASE | FLAGS | ENTRY
  | NOTELF | UID | EUID | GID | EGID | PLATFORM | HWCAP | CLKTCK | FPUCW
  | DCACHEBSIZE | ICACHEBSIZE | UCACHEBSIZE | IGNOREPPC | SECURE | BASE_PLATFORM
  | RANDOM | HWCAP2 | EXECFN | SYSINFO | SYSINFO_EHDR
  | L1I_CACHESHAPE | L1D_CACHESHAPE | L2_CACHESHAPE | L3_CACHESHAPE
  | L1I_CACHESIZE | L1I_CACHEGEOMETRY | L1D_CACHESIZE | L1D_CACHEGEOMETRY
  | L2_CACHESIZE | L2_CACHEGEOMETRY | L3_CACHESIZE | L3_CACHEGEOMETRY
  | MINSIGSTKSZ
  deriving DecidableEq, Repr

namespace AuxvType

/-- The `usize` discriminant, i.e. the first word of an entry in memory. -/
def toUsize : AuxvType → Nat
  | NULL => 0 | IGNORE => 1 | EXECFD => 2 | PHDR => 3 | PHENT => 4 | PHNUM => 5
  | PAGESZ => 6 | BASE => 7 | FLAGS => 8 | ENTRY => 9 | NOTELF => 10 | UID => 11
  | EUID => 12 | GID => 13 | EGID => 14 | PLATFORM => 15 | HWCAP => 16
  | CLKTCK => 17 | FPUCW => 18 | DCACHEBSIZE => 19 | ICACHEBSIZE => 20
  | UCACHEBSIZE => 21 | IGNOREPPC => 22 | SECURE => 23 | BASE_PLATFORM => 24
  | RANDOM => 25 | HWCAP2 => 26 | EXECFN => 31 | SYSINFO => 32 | SYSINFO_EHDR => 33
  | L1I_CACHESHAPE => 34 | L1D_CACHESHAPE => 35 | L2_CACHESHAPE => 36
  | L3_CACHESHAPE => 37 | L1I_CACHESIZE => 40 | L1I_CACHEGEOMETRY => 41
  | L1D_CACHESIZE => 42 | L1D_CACHEGEOMETRY => 43 | L2_CACHESIZE => 44
  | L2_CACHEGEOMETRY => 45 | L3_CACHESIZE => 46 | L3_CACHEGEOMETRY => 47
  | MINSIGSTKSZ => 51

theorem toUsize_lt (t : AuxvType) : t.toUsize < 2 ^ 64 := by
  cases t <;> decide

end AuxvType

/-- `AuxvEntry`: a type tag and a `usize` value. -/
structure AuxvEntry where
  auxvType : AuxvType
  auxvVal : Nat
  deriving DecidableEq, Repr

namespace AuxvEntry

/-- `AuxvEntry::new`. -/
def new (auxvType : AuxvType) (auxvVal : Nat) : AuxvEntry :=
  ⟨auxvType, auxvVal⟩

/-- `AuxvEntry::get_type`. -/
def getType (self : AuxvEntry) : AuxvType :=
  self.auxvType

/-- `AuxvEntry::value`. -/
def value (self : AuxvEntry) : Nat :=
  self.auxvVal

@[simp] theorem getType_eq (e : AuxvEntry) : e.getType = e.auxvType := rfl

@[simp] theorem value_eq (e : AuxvEntry) : e.value = e.auxvVal := rfl

end AuxvEntry

/-- The `usize` words of an auxiliary vector as `init_stack` reinterprets the
slice (`from_raw_parts(auxv.as_ptr() as *const usize, size_of_val(auxv) / 8)`). -/
def auxvWords (auxv : List AuxvEntry) : List Nat :=
  auxv.flatMap fun entry => [entry.auxvType.toUsize, entry.auxvVal]

@[simp] theorem auxvWords_nil : auxvWords [] = [] := rfl

@[simp] theorem auxvWords_cons (entry : AuxvEntry) (auxv : List AuxvEntry) :
    auxvWords (entry :: auxv) =
      entry.auxvType.toUsize :: entry.auxvVal :: auxvWords auxv := rfl

@[simp] theorem length_auxvWords (auxv : List AuxvEntry) :
    (auxvWords auxv).length = 2 * auxv.length := by
  induction auxv with
  | nil => rfl
  | cons entry auxv inductionHypothesis =>
      simp only [auxvWords_cons, List.length_cons, inductionHypothesis]
      omega

theorem getElem_auxvWords_type (auxv : List AuxvEntry) (k : Nat) (inRange : k < auxv.length) :
    (auxvWords auxv).get ⟨2 * k, by rw [length_auxvWords]; omega⟩ = auxv[k].auxvType.toUsize := by
  induction auxv generalizing k with
  | nil => simp at inRange
  | cons entry auxv inductionHypothesis =>
      cases k with
      | zero => rfl
      | succ k =>
          simp only [List.length_cons, Nat.add_lt_add_iff_right] at inRange
          simpa [Nat.mul_succ] using inductionHypothesis k inRange

theorem getElem_auxvWords_val (auxv : List AuxvEntry) (k : Nat) (inRange : k < auxv.length) :
    (auxvWords auxv).get ⟨2 * k + 1, by rw [length_auxvWords]; omega⟩ = auxv[k].auxvVal := by
  induction auxv generalizing k with
  | nil => simp at inRange
  | cons entry auxv inductionHypothesis =>
      cases k with
      | zero => rfl
      | succ k =>
          simp only [List.length_cons, Nat.add_lt_add_iff_right] at inRange
          simpa [Nat.mul_succ] using inductionHypothesis k inRange

end ThCore.ElfParser

import ThCore.ElfParser.StackLayout
import ThCore.ElfParser.Info

/-!
# `app_stack_region` on the loader's auxiliary vector

`app_stack_region` builds the stack whose top is `stack_base + stack_size` with
`init_stack`, and the loader hands it the auxiliary vector of
`ELFParser::auxv_vector`.  The only panic left in `init_stack` is the
back-patching of `AT_EXECFN`, which reads `argv_slice[0]`.  The alignment
`assert!` always holds (`alignStack_run`).  `appStackRegion_spec` shows that the
call panics exactly when there is no argument and the vector has an `EXECFN`
entry, which `auxv_vector` always emits.  It also shows that the buffer is at
least as long as the strings it carries and the words that point to them,
whatever `stack_size` is: nothing compares it with the region.
-/

namespace ThCore.ElfParser

/-! ## Where `app_stack_region` panics -/

theorem length_eq_of_mapM_eq_some {α β : Type} {f : α → Option β} :
    ∀ {xs : List α} {ys : List β}, xs.mapM f = some ys → ys.length = xs.length
  | [], ys, mapped => by
    simp only [List.mapM_nil, Option.pure_def, Option.some.injEq] at mapped
    rw [← mapped]
    rfl
  | x :: xs, ys, mapped => by
    simp only [List.mapM_cons, Option.bind_eq_bind, Option.bind_eq_some, Option.pure_def,
      Option.some.injEq] at mapped
    obtain ⟨y, -, rest, restMapped, rfl⟩ := mapped
    rw [List.length_cons, List.length_cons, length_eq_of_mapM_eq_some restMapped]

/-- `auxv_vector` always has an `AT_EXECFN` entry. -/
theorem execfn_mem_auxvVector (parser : ELFParser) (pagesz : UInt64) :
    ∃ entry ∈ parser.auxvVector pagesz, entry.auxvType = .EXECFN :=
  ⟨⟨.EXECFN, 0⟩, by simp [ELFParser.auxvVector], rfl⟩

/-- `app_stack_region` for every `args`, `envs`, `auxv`, `stack_base` and
`stack_size`: it panics exactly when there is no argument and `auxv` has an
`EXECFN` entry, so always when `argc = 0` on the vector of `auxv_vector`; and the
buffer it returns holds the strings, the seed and at least four words per
argument, environment string and three more, whatever the size of the region. -/
theorem appStackRegion_spec (args envs : List (List UInt8)) (auxv : List AuxvEntry)
    (stackBase stackSize : Nat) :
    (appStackRegion args envs auxv stackBase stackSize = none ↔
        args = [] ∧ ∃ entry ∈ auxv, entry.auxvType = .EXECFN) ∧
      (∀ (parser : ELFParser) (pagesz : UInt64),
        appStackRegion [] envs (parser.auxvVector pagesz) stackBase stackSize = none) ∧
      ∀ data patched, appStackRegion args envs auxv stackBase stackSize = some (data, patched) →
        (stringArea args envs).length + 8 * (args.length + envs.length + 2 * auxv.length + 4) ≤
          data.length := by
  have word : usizeAdd stackBase stackSize < 2 ^ 64 := Nat.mod_lt _ (Nat.two_pow_pos 64)
  refine ⟨initStack_eq_none_iff args envs auxv word, fun parser pagesz => ?_,
    fun data patched built => ?_⟩
  · exact (initStack_eq_none_iff [] envs _ word).mpr ⟨rfl, execfn_mem_auxvVector parser pagesz⟩
  · unfold appStackRegion at built
    rw [initStack_eq args envs auxv word] at built
    obtain ⟨result, patchOk, same⟩ := Option.map_eq_some'.mp built
    simp only [Prod.mk.injEq] at same
    obtain ⟨rfl, rfl⟩ := same
    rw [length_startupStack, length_eq_of_mapM_eq_some patchOk, List.length_append]
    simp only [paddingNull, List.length_replicate]
    omega

theorem appStackRegion_spec_noArgs :
    appStackRegion [] [] [⟨.EXECFN, 0⟩, ⟨.NULL, 0⟩] 0x10000 0x1000 = none :=
  ((appStackRegion_spec [] [] [⟨.EXECFN, 0⟩, ⟨.NULL, 0⟩] 0x10000 0x1000).1).mpr
    ⟨rfl, ⟨.EXECFN, 0⟩, List.mem_cons_self _ _, rfl⟩

end ThCore.ElfParser

import ThCore.ElfParser.UserStack

/-!
# The layout `init_stack` produces

`init_stack` is a straight line of pushes, so its output is one concatenation:
the `usize` words `argc, argv.., 0, envp.., 0, auxv..`, the alignment padding,
eight NUL bytes, the argument strings, the environment strings and the random
seed, lowest address first.  `initStack_eq` states this for every input; the
process-startup layout and the stack alignment are read off it.
-/

namespace ThCore.ElfParser

/-! ## The closed form -/

/-- The argument strings, the environment strings and the seed, as they lie at
the top of the stack. -/
def stringArea (args envs : List (List UInt8)) : List UInt8 :=
  packStrs args ++ (packStrs envs ++ randomStr)

/-- `envs_slice`: where `push_str` put each environment string. -/
def envsSliceOf (sp : Nat) (envs : List (List UInt8)) : List Nat :=
  (strDepths randomStr.length envs).map (usizeSub sp)

/-- `argv_slice`: where `push_str` put each argument string. -/
def argvSliceOf (sp : Nat) (args envs : List (List UInt8)) : List Nat :=
  (strDepths (packStrs envs ++ randomStr).length args).map (usizeSub sp)

/-- The NUL bytes pushed to bring the cursor down to a multiple of 16. -/
def alignPad (sp : Nat) (args envs : List (List UInt8)) : Nat :=
  usizeSub sp (paddingNull ++ stringArea args envs).length % 16

/-- The words at the bottom of the stack: `argc`, the `argv` pointers and a
NUL, the `envp` pointers and a NUL, then the auxiliary vector. -/
def startupWords (argc : Nat) (argvSlice envsSlice : List Nat) (auxv : List AuxvEntry) :
    List Nat :=
  argc :: (argvSlice ++ 0 :: (envsSlice ++ 0 :: auxvWords auxv))

@[simp] theorem length_argvSliceOf (sp : Nat) (args envs : List (List UInt8)) :
    (argvSliceOf sp args envs).length = args.length := by
  simp [argvSliceOf]

@[simp] theorem length_envsSliceOf (sp : Nat) (envs : List (List UInt8)) :
    (envsSliceOf sp envs).length = envs.length := by
  simp [envsSliceOf]

/-- The bytes `init_stack` returns once the auxiliary vector is `patched`. -/
def startupStack (sp : Nat) (args envs : List (List UInt8)) (patched : List AuxvEntry) :
    List UInt8 :=
  leWords (startupWords args.length (argvSliceOf sp args envs) (envsSliceOf sp envs) patched) ++
    (List.replicate (alignPad sp args envs) 0 ++ (paddingNull ++ stringArea args envs))

theorem length_startupStack (sp : Nat) (args envs : List (List UInt8)) (patched : List AuxvEntry) :
    (startupStack sp args envs patched).length =
      8 * (3 + args.length + envs.length + 2 * patched.length) + alignPad sp args envs +
        (paddingNull ++ stringArea args envs).length := by
  simp only [startupStack, List.length_append, length_leWords, startupWords, List.length_cons,
    length_argvSliceOf, length_envsSliceOf, length_auxvWords, List.length_replicate]
  omega

/-- `init_stack` as one concatenation: it panics only in the back-patching of
the auxiliary vector, and otherwise returns these bytes. -/
theorem initStack_eq (args envs : List (List UInt8)) (auxv : List AuxvEntry) {sp : Nat}
    (word : sp < 2 ^ 64) :
    initStack args envs auxv sp =
      (auxv.mapM (patchAuxvEntry (usizeSub sp randomStr.length)
          (argvSliceOf sp args envs))).map fun patched =>
        (startupStack sp args envs patched, patched) := by
  simp only [initStack, new_eq_cursorAt word, pushStrings_run, alignStack_run, List.append_nil]
  simp only [lift_run, pushWords_run, StateT.run_pure, argvSliceOf]
  cases auxv.mapM (patchAuxvEntry (usizeSub sp randomStr.length)
    ((strDepths (packStrs envs ++ randomStr).length args).map (usizeSub sp))) <;> rfl

/-! ## Reading the stack back -/

/-- The NUL-terminated string `str` is at address `addr` of the buffer `data`,
whose last byte lies just below `sp0`. -/
def StrAt (data : List UInt8) (sp0 addr : Nat) (str : List UInt8) : Prop :=
  sp0 - data.length ≤ addr ∧ addr < sp0 ∧
    (data.drop (addr - (sp0 - data.length))).take (str.length + 1) = str ++ [0]

/-- A null-terminated array of pointers at byte offset `off` of `data`, the
`i`-th pointing at the string `strs[i]`. -/
def PointerArray (data : List UInt8) (sp0 off : Nat) (strs : List (List UInt8)) : Prop :=
  (∀ (i : Nat) (inRange : i < strs.length), StrAt data sp0 (wordAt data (off + 8 * i)) strs[i]) ∧
    wordAt data (off + 8 * strs.length) = 0

/-- The auxiliary vector after back-patching, as the process-startup ABI wants
it: the `RANDOM` entry points at the seed, the `EXECFN` entry at the program
name. -/
def backPatched (randomPos execFn : Nat) (entry : AuxvEntry) : AuxvEntry :=
  if entry.auxvType = .RANDOM then { entry with auxvVal := randomPos }
  else if entry.auxvType = .EXECFN then { entry with auxvVal := execFn }
  else entry

/-- Back-patching keeps every value a word. -/
theorem backPatched_auxvVal_lt {randomPos execFn : Nat} {entry : AuxvEntry}
    (random : randomPos < 2 ^ 64) (exec : execFn < 2 ^ 64) (value : entry.auxvVal < 2 ^ 64) :
    (backPatched randomPos execFn entry).auxvVal < 2 ^ 64 := by
  unfold backPatched
  split_ifs
  · exact random
  · exact exec
  · exact value

/-- What a new process finds on the stack `data` whose top is `sp0`, walking it
from its lowest byte: `argc`, `argv` and `envp`, the auxiliary vector, and the
seed at `sp0 - 16`; `patched` is the caller's auxiliary vector afterwards. -/
structure StartupLayout (args envs : List (List UInt8)) (auxv : List AuxvEntry) (sp0 : Nat)
    (data : List UInt8) (patched : List AuxvEntry) : Prop where
  argc : wordAt data 0 = args.length
  argv : PointerArray data sp0 8 args
  envp : PointerArray data sp0 (16 + 8 * args.length) envs
  auxvPairs : ∀ (k : Nat) (inRange : k < patched.length),
    wordAt data (24 + 8 * args.length + 8 * envs.length + 16 * k) =
        patched[k].auxvType.toUsize ∧
      wordAt data (32 + 8 * args.length + 8 * envs.length + 16 * k) = patched[k].auxvVal
  backPatch : patched = auxv.map (backPatched (sp0 - 16) (wordAt data 8))
  seed : data.drop (data.length - 16) = randomStr

theorem patchAuxvEntry_eq_some {randomPos execFn : Nat} {argvSlice : List Nat}
    {entry patched : AuxvEntry} (program : ∀ pos ∈ argvSlice[0]?, pos = execFn)
    (ok : patchAuxvEntry randomPos argvSlice entry = some patched) :
    patched = backPatched randomPos execFn entry := by
  unfold patchAuxvEntry at ok
  by_cases random : entry.auxvType = .RANDOM
  · simp_all [backPatched]
  · by_cases name : entry.auxvType = .EXECFN
    · cases first : argvSlice[0]? with
      | none => simp_all
      | some pos =>
          have := program pos first
          simp_all [backPatched]
    · simp_all [backPatched]

theorem mapM_patchAuxvEntry {randomPos execFn : Nat} {argvSlice : List Nat}
    (program : ∀ pos ∈ argvSlice[0]?, pos = execFn) :
    ∀ {auxv patched : List AuxvEntry},
      auxv.mapM (patchAuxvEntry randomPos argvSlice) = some patched →
        patched = auxv.map (backPatched randomPos execFn)
  | [], patched, ok => by
      simp only [List.mapM_nil, Option.pure_def, Option.some.injEq] at ok
      exact ok.symm
  | entry :: auxv, patched, ok => by
      simp only [List.mapM_cons, Option.bind_eq_bind, Option.bind_eq_some,
        Option.pure_def, Option.some.injEq] at ok
      obtain ⟨head, headOk, tail, tailOk, rfl⟩ := ok
      rw [patchAuxvEntry_eq_some program headOk, mapM_patchAuxvEntry program tailOk,
        List.map_cons]

/-- A string pushed `depth` bytes below the top is at address `sp0 - depth`
when the cursor did not wrap. -/
theorem StrAtDepth.strAt {data : List UInt8} {depth sp0 : Nat} {str : List UInt8}
    (held : StrAtDepth data depth str) (fits : data.length ≤ sp0) (word : sp0 < 2 ^ 64) :
    StrAt data sp0 (usizeSub sp0 depth) str := by
  obtain ⟨shorter, deep, bytes⟩ := held.read
  rw [usizeSub_of_le (by omega) word]
  refine ⟨by omega, by omega, ?_⟩
  rwa [show sp0 - depth - (sp0 - data.length) = data.length - depth by omega]

theorem length_le_length_packStrs (strs : List (List UInt8)) :
    strs.length ≤ (packStrs strs).length := by
  induction strs with
  | nil => exact Nat.le_refl 0
  | cons str strs inductionHypothesis =>
      simp only [packStrs, List.length_append, List.length_cons, List.length_singleton]
      omega

theorem leWords_startupWords (argc : Nat) (argvSlice envsSlice : List Nat)
    (auxv : List AuxvEntry) (rest : List UInt8) :
    leWords (startupWords argc argvSlice envsSlice auxv) ++ rest =
      leWords [argc] ++ (leWords argvSlice ++ (leWords [0] ++ (leWords envsSlice ++
        (leWords [0] ++ (leWords (auxvWords auxv) ++ rest))))) := by
  simp only [startupWords, leWords_cons, leWords_nil, leWords_append, List.append_assoc,
    List.append_nil]

section StartupWords

variable (argc : Nat) (argvSlice envsSlice : List Nat) (auxv : List AuxvEntry)
  (rest : List UInt8)

theorem wordAt_startupWords_argc :
    wordAt (leWords (startupWords argc argvSlice envsSlice auxv) ++ rest) 0 = argc % 2 ^ 64 := by
  rw [leWords_startupWords]
  exact wordAt_leWords [argc] _ 0 (by simp)

theorem wordAt_startupWords_argv (i : Nat) (inRange : i < argvSlice.length) :
    wordAt (leWords (startupWords argc argvSlice envsSlice auxv) ++ rest) (8 + 8 * i) =
      argvSlice[i] % 2 ^ 64 := by
  rw [leWords_startupWords, show 8 + 8 * i = 8 * [argc].length + 8 * i by simp,
    wordAt_leWords_skip, wordAt_leWords argvSlice _ i inRange]

theorem wordAt_startupWords_argvNull :
    wordAt (leWords (startupWords argc argvSlice envsSlice auxv) ++ rest)
      (8 + 8 * argvSlice.length) = 0 := by
  rw [leWords_startupWords, show 8 + 8 * argvSlice.length =
      8 * [argc].length + (8 * argvSlice.length + 8 * 0) by simp,
    wordAt_leWords_skip, wordAt_leWords_skip, wordAt_leWords [0] _ 0 (by simp)]
  rfl

theorem wordAt_startupWords_envp (j : Nat) (inRange : j < envsSlice.length) :
    wordAt (leWords (startupWords argc argvSlice envsSlice auxv) ++ rest)
      (16 + 8 * argvSlice.length + 8 * j) = envsSlice[j] % 2 ^ 64 := by
  rw [leWords_startupWords, show 16 + 8 * argvSlice.length + 8 * j =
      8 * [argc].length + (8 * argvSlice.length + (8 * [0].length + 8 * j)) by simp; omega,
    wordAt_leWords_skip, wordAt_leWords_skip, wordAt_leWords_skip,
    wordAt_leWords envsSlice _ j inRange]

theorem wordAt_startupWords_envpNull :
    wordAt (leWords (startupWords argc argvSlice envsSlice auxv) ++ rest)
      (16 + 8 * argvSlice.length + 8 * envsSlice.length) = 0 := by
  rw [leWords_startupWords, show 16 + 8 * argvSlice.length + 8 * envsSlice.length =
      8 * [argc].length + (8 * argvSlice.length + (8 * [0].length +
        (8 * envsSlice.length + 8 * 0))) by simp; omega,
    wordAt_leWords_skip, wordAt_leWords_skip, wordAt_leWords_skip, wordAt_leWords_skip,
    wordAt_leWords [0] _ 0 (by simp)]
  rfl

theorem wordAt_startupWords_auxv (k : Nat) (inRange : k < auxv.length) :
    wordAt (leWords (startupWords argc argvSlice envsSlice auxv) ++ rest)
        (24 + 8 * argvSlice.length + 8 * envsSlice.length + 16 * k) =
      auxv[k].auxvType.toUsize % 2 ^ 64 ∧
    wordAt (leWords (startupWords argc argvSlice envsSlice auxv) ++ rest)
        (32 + 8 * argvSlice.length + 8 * envsSlice.length + 16 * k) =
      auxv[k].auxvVal % 2 ^ 64 := by
  have skipAll (off : Nat) :
      wordAt (leWords (startupWords argc argvSlice envsSlice auxv) ++ rest)
          (24 + 8 * argvSlice.length + 8 * envsSlice.length + off) =
        wordAt (leWords (auxvWords auxv) ++ rest) off := by
    rw [leWords_startupWords, show 24 + 8 * argvSlice.length + 8 * envsSlice.length + off =
        8 * [argc].length + (8 * argvSlice.length + (8 * [0].length +
          (8 * envsSlice.length + (8 * [0].length + off)))) by simp; omega]
    simp only [wordAt_leWords_skip]
  constructor
  · rw [skipAll, show 16 * k = 8 * (2 * k) by omega, wordAt_leWords _ _ _ (by simp; omega)]
    exact congrArg (· % 2 ^ 64) (getElem_auxvWords_type auxv k inRange)
  · rw [show 32 + 8 * argvSlice.length + 8 * envsSlice.length + 16 * k =
        24 + 8 * argvSlice.length + 8 * envsSlice.length + 8 * (2 * k + 1) by omega,
      skipAll, wordAt_leWords _ _ _ (by simp; omega)]
    exact congrArg (· % 2 ^ 64) (getElem_auxvWords_val auxv k inRange)

end StartupWords

theorem drop_sub_length_suffix (front back : List UInt8) :
    (front ++ back).drop ((front ++ back).length - back.length) = back := by
  rw [List.length_append, Nat.add_sub_cancel, List.drop_left]

theorem length_randomStr : randomStr.length = 16 := rfl

/-! ## The parts of the layout -/

section Parts

variable {args envs : List (List UInt8)} {sp0 : Nat} (patched : List AuxvEntry)

/-- The `i`-th `argv` pointer is `argv_slice[i]`. -/
theorem wordAt_startupStack_argv (i : Nat) (inRange : i < (argvSliceOf sp0 args envs).length) :
    wordAt (startupStack sp0 args envs patched) (8 + 8 * i) = (argvSliceOf sp0 args envs)[i] := by
  rw [startupStack, wordAt_startupWords_argv _ _ _ _ _ i inRange, Nat.mod_eq_of_lt]
  simp only [argvSliceOf, List.getElem_map]
  exact usizeSub_lt _ _

/-- The `j`-th `envp` pointer is `envs_slice[j]`. -/
theorem wordAt_startupStack_envp (j : Nat) (inRange : j < (envsSliceOf sp0 envs).length) :
    wordAt (startupStack sp0 args envs patched) (16 + 8 * args.length + 8 * j) =
      (envsSliceOf sp0 envs)[j] := by
  have envpWord := wordAt_startupWords_envp args.length (argvSliceOf sp0 args envs)
    (envsSliceOf sp0 envs) patched
    (List.replicate (alignPad sp0 args envs) 0 ++ (paddingNull ++ stringArea args envs)) j inRange
  rw [length_argvSliceOf] at envpWord
  rw [startupStack, envpWord, Nat.mod_eq_of_lt]
  simp only [envsSliceOf, List.getElem_map]
  exact usizeSub_lt _ _

/-- `argv`: each pointer leads to its argument string, and a NUL ends the array. -/
theorem argv_pointerArray (word : sp0 < 2 ^ 64)
    (fits : (startupStack sp0 args envs patched).length ≤ sp0) :
    PointerArray (startupStack sp0 args envs patched) sp0 8 args := by
  refine ⟨fun i inRange => ?_, ?_⟩
  · rw [wordAt_startupStack_argv patched i (by simpa using inRange)]
    unfold startupStack at fits ⊢
    simpa [argvSliceOf] using ((((pushStrs_strAtDepth args _ i inRange).prepend
      paddingNull).prepend (List.replicate (alignPad sp0 args envs) 0)).prepend
        (leWords (startupWords args.length (argvSliceOf sp0 args envs)
          (envsSliceOf sp0 envs) patched))).strAt fits word
  · unfold startupStack
    simpa using wordAt_startupWords_argvNull args.length (argvSliceOf sp0 args envs)
      (envsSliceOf sp0 envs) patched
      (List.replicate (alignPad sp0 args envs) 0 ++ (paddingNull ++ stringArea args envs))

/-- `envp`: each pointer leads to its environment string, and a NUL ends the
array. -/
theorem envp_pointerArray (word : sp0 < 2 ^ 64)
    (fits : (startupStack sp0 args envs patched).length ≤ sp0) :
    PointerArray (startupStack sp0 args envs patched) sp0 (16 + 8 * args.length) envs := by
  refine ⟨fun j inRange => ?_, ?_⟩
  · rw [wordAt_startupStack_envp patched j (by simpa using inRange)]
    unfold startupStack at fits ⊢
    simpa [envsSliceOf] using (((((pushStrs_strAtDepth envs randomStr j inRange).prepend
      (packStrs args)).prepend paddingNull).prepend
        (List.replicate (alignPad sp0 args envs) 0)).prepend
          (leWords (startupWords args.length (argvSliceOf sp0 args envs)
            (envsSliceOf sp0 envs) patched))).strAt fits word
  · unfold startupStack
    simpa using wordAt_startupWords_envpNull args.length (argvSliceOf sp0 args envs)
      (envsSliceOf sp0 envs) patched
      (List.replicate (alignPad sp0 args envs) 0 ++ (paddingNull ++ stringArea args envs))

/-- The auxiliary vector's pairs, when each value is a word. -/
theorem startupStack_auxvPairs (values : ∀ entry ∈ patched, entry.auxvVal < 2 ^ 64)
    (k : Nat) (inRange : k < patched.length) :
    wordAt (startupStack sp0 args envs patched) (24 + 8 * args.length + 8 * envs.length + 16 * k) =
        patched[k].auxvType.toUsize ∧
      wordAt (startupStack sp0 args envs patched)
          (32 + 8 * args.length + 8 * envs.length + 16 * k) = patched[k].auxvVal := by
  have pair := wordAt_startupWords_auxv args.length (argvSliceOf sp0 args envs)
    (envsSliceOf sp0 envs) patched
    (List.replicate (alignPad sp0 args envs) 0 ++ (paddingNull ++ stringArea args envs)) k inRange
  rw [length_argvSliceOf, length_envsSliceOf] at pair
  rw [startupStack, pair.1, pair.2, Nat.mod_eq_of_lt (AuxvType.toUsize_lt _),
    Nat.mod_eq_of_lt (values _ (List.getElem_mem inRange))]
  exact ⟨rfl, rfl⟩

end Parts

/-! ## Where `init_stack` panics -/

theorem mapM_eq_none_iff {α β : Type} {f : α → Option β} :
    ∀ {xs : List α}, xs.mapM f = none ↔ ∃ x ∈ xs, f x = none
  | [] => by
    rw [List.mapM_nil]
    exact ⟨fun built => (by cases built), fun ⟨_, member, _⟩ => (by cases member)⟩
  | x :: xs => by
    rw [List.mapM_cons, List.exists_mem_cons_iff]
    cases found : f x with
    | none => exact ⟨fun _ => .inl rfl, fun _ => rfl⟩
    | some y =>
      cases rest : xs.mapM f with
      | none => exact ⟨fun _ => .inr (mapM_eq_none_iff.mp rest), fun _ => rfl⟩
      | some ys =>
        have allSome : ¬∃ a ∈ xs, f a = none := fun missing => by
          rw [mapM_eq_none_iff.mpr missing] at rest
          cases rest
        exact ⟨fun built => (by cases built),
          fun missing => missing.elim (fun first => by cases first) (absurd · allSome)⟩

/-- One turn of the back-patching loop panics exactly on an `EXECFN` entry when
there is no argument. -/
theorem patchAuxvEntry_eq_none_iff (randomPos : Nat) (argvSlice : List Nat) (entry : AuxvEntry) :
    patchAuxvEntry randomPos argvSlice entry = none ↔
      argvSlice = [] ∧ entry.auxvType = .EXECFN := by
  unfold patchAuxvEntry
  by_cases random : entry.auxvType = .RANDOM
  · have notName : entry.auxvType ≠ .EXECFN := by rw [random]; decide
    simp [random, notName]
  · by_cases name : entry.auxvType = .EXECFN
    · cases argvSlice <;> simp [random, name]
    · simp [random, name]

theorem initStack_eq_none_iff (args envs : List (List UInt8)) (auxv : List AuxvEntry) {sp : Nat}
    (word : sp < 2 ^ 64) :
    initStack args envs auxv sp = none ↔ args = [] ∧ ∃ entry ∈ auxv, entry.auxvType = .EXECFN := by
  rw [initStack_eq args envs auxv word, Option.map_eq_none', mapM_eq_none_iff]
  simp only [patchAuxvEntry_eq_none_iff, ← List.length_eq_zero, length_argvSliceOf]
  exact ⟨fun ⟨entry, member, noArgs, name⟩ => ⟨noArgs, entry, member, name⟩,
    fun ⟨noArgs, entry, member, name⟩ => ⟨entry, member, noArgs, name⟩⟩

/-! ## The process-startup layout -/

/-- `init_stack` panics exactly when there is no argument and the caller's
vector has an `EXECFN` entry.  Every stack it builds without wrapping its cursor
has the process-startup layout, and the caller's auxiliary vector is back-patched. -/
theorem initStack_startupLayout {args envs : List (List UInt8)} {auxv : List AuxvEntry}
    {sp0 : Nat} (word : sp0 < 2 ^ 64) (values : ∀ entry ∈ auxv, entry.auxvVal < 2 ^ 64) :
    ((initStack args envs auxv sp0).isSome ↔
        ¬(args = [] ∧ ∃ entry ∈ auxv, entry.auxvType = .EXECFN)) ∧
      ∀ data patched, initStack args envs auxv sp0 = some (data, patched) →
        data.length ≤ sp0 → StartupLayout args envs auxv sp0 data patched := by
  refine ⟨by rw [Option.isSome_iff_ne_none, Ne, initStack_eq_none_iff args envs auxv word],
    fun data patched built fits => ?_⟩
  rw [initStack_eq args envs auxv word] at built
  obtain ⟨result, patchOk, same⟩ := Option.map_eq_some'.mp built
  simp only [Prod.mk.injEq] at same
  obtain ⟨rfl, rfl⟩ := same
  have program : ∀ pos ∈ (argvSliceOf sp0 args envs)[0]?,
      pos = wordAt (startupStack sp0 args envs result) 8 := by
    intro pos first
    obtain ⟨inRange, rfl⟩ := List.getElem?_eq_some_iff.mp first
    exact (wordAt_startupStack_argv result 0 inRange).symm
  have stringsFit := fits
  simp only [startupStack, stringArea, List.length_append, length_randomStr] at stringsFit
  have backPatch := mapM_patchAuxvEntry program patchOk
  rw [length_randomStr, usizeSub_of_le (by omega) word] at backPatch
  refine ⟨?argc, argv_pointerArray result word fits, envp_pointerArray result word fits,
    startupStack_auxvPairs result ?values, backPatch, ?seed⟩
  case argc =>
    have := length_le_length_packStrs args
    rw [startupStack, wordAt_startupWords_argc, Nat.mod_eq_of_lt (by omega)]
  case values =>
    rw [backPatch]
    intro patchedEntry member
    obtain ⟨entry, entryMember, rfl⟩ := List.mem_map.mp member
    exact backPatched_auxvVal_lt (Nat.lt_of_le_of_lt (Nat.sub_le _ _) word) (wordAt_lt _ _)
      (values entry entryMember)
  case seed =>
    simp only [startupStack, stringArea, ← List.append_assoc]
    exact drop_sub_length_suffix _ randomStr

/-- One argument `"a"`, no environment, and the three auxiliary entries the
back-patching looks at, on a stack whose top is `4096`. -/
theorem initStack_startupLayout_small :
    ∃ data patched,
      initStack [asciiBytes "a"] [] [⟨.RANDOM, 0⟩, ⟨.EXECFN, 0⟩, ⟨.NULL, 0⟩] 4096 =
          some (data, patched) ∧
        StartupLayout [asciiBytes "a"] [] [⟨.RANDOM, 0⟩, ⟨.EXECFN, 0⟩, ⟨.NULL, 0⟩] 4096
          data patched :=
  ⟨_, _, rfl, (initStack_startupLayout (by decide) (by decide)).2 _ _ rfl (by decide)⟩

/-! ## Alignment of the final stack pointer -/

/-- The padding aligns the cursor before the auxiliary vector, and the
`8 * (args.len() + envs.len() + 3)` bytes of pointers and `argc` pushed after it
leave the final stack pointer `16`-aligned exactly when
`args.len() + envs.len()` is odd. -/
theorem initStack_sp_mod_sixteen {args envs : List (List UInt8)} {auxv : List AuxvEntry}
    {sp0 : Nat} {data : List UInt8} {patched : List AuxvEntry}
    (word : sp0 < 2 ^ 64) (fits : data.length ≤ sp0)
    (built : initStack args envs auxv sp0 = some (data, patched)) :
    (sp0 - data.length) % 16 = 8 * ((args.length + envs.length + 1) % 2) := by
  rw [initStack_eq args envs auxv word] at built
  obtain ⟨result, -, same⟩ := Option.map_eq_some'.mp built
  simp only [Prod.mk.injEq] at same
  obtain ⟨rfl, rfl⟩ := same
  have size := length_startupStack sp0 args envs result
  have pad : alignPad sp0 args envs = (sp0 - (paddingNull ++ stringArea args envs).length) % 16 := by
    rw [alignPad, usizeSub_of_le (by omega) word]
  omega

set_option maxRecDepth 8000 in
/-- The stack of `test_ustack` (three arguments, one environment string, top
`0x4000_0000`) ends eight bytes off a 16-byte boundary. -/
theorem initStack_testUstack_misaligned :
    ∃ data patched,
      initStack [asciiBytes "arg1", asciiBytes "arg2", asciiBytes "arg3"]
          [asciiBytes "LOG=file"] [⟨.PHENT, 56⟩, ⟨.RANDOM, 0⟩, ⟨.EXECFN, 0⟩, ⟨.NULL, 0⟩]
          0x40000000 = some (data, patched) ∧
        data.length ≤ 0x40000000 ∧ (0x40000000 - data.length) % 16 = 8 :=
  ⟨_, _, rfl, by decide, by decide⟩

/-- With one argument and no environment the final stack pointer is aligned. -/
theorem initStack_sp_mod_sixteen_small :
    ∃ data patched,
      initStack [asciiBytes "a"] [] [⟨.RANDOM, 0⟩, ⟨.EXECFN, 0⟩, ⟨.NULL, 0⟩] 4096 =
          some (data, patched) ∧
        (4096 - data.length) % 16 = 8 * (([asciiBytes "a"].length + ([] : List (List UInt8)).length + 1) % 2) :=
  ⟨_, _, rfl, @initStack_sp_mod_sixteen [asciiBytes "a"] [] [⟨.RANDOM, 0⟩, ⟨.EXECFN, 0⟩, ⟨.NULL, 0⟩]
    4096 _ _ (by decide) (by decide) rfl⟩

end ThCore.ElfParser

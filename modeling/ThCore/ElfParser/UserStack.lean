import ThCore.ElfParser.Auxv

/-!
# The initial user stack

`kernel-elf-parser/src/user_stack.rs`.  `init_stack` builds the bytes of a new
process's stack by prepending to a buffer while a `UserStack` cursor moves down
from the stack top `sp`.  The kernel is built without overflow checks, so the
cursor's `-=` wraps modulo `2 ^ 64`; every lemma below holds for all inputs, and
the layout theorems of `ThCore.ElfParser.StackLayout` add the one hypothesis
that the cursor did not wrap.
-/

namespace ThCore.ElfParser

/-! ## Machine words -/

/-- `a - b` on `usize` when the subtraction wraps. -/
def usizeSub (a b : Nat) : Nat :=
  (a + (2 ^ 64 - b % 2 ^ 64)) % 2 ^ 64

/-- `a + b` on `usize` when the addition wraps. -/
def usizeAdd (a b : Nat) : Nat :=
  (a + b) % 2 ^ 64

theorem usizeSub_lt (a b : Nat) : usizeSub a b < 2 ^ 64 := by
  unfold usizeSub
  omega

@[simp] theorem usizeSub_usizeSub (a b c : Nat) :
    usizeSub (usizeSub a b) c = usizeSub a (b + c) := by
  unfold usizeSub
  omega

theorem usizeSub_of_le {a b : Nat} (below : b ≤ a) (word : a < 2 ^ 64) :
    usizeSub a b = a - b := by
  unfold usizeSub
  omega

/-- The `w` little-endian bytes of `n`; bits above `8 * w` are dropped. -/
def leBytes : Nat → Nat → List UInt8
  | 0, _ => []
  | w + 1, n => UInt8.ofNat n :: leBytes w (n / 256)

/-- The number whose little-endian bytes are given. -/
def leValue : List UInt8 → Nat
  | [] => 0
  | b :: bs => b.toNat + 256 * leValue bs

/-- `val.to_le_bytes()` for a `usize`. -/
def toLeBytes (val : Nat) : List UInt8 :=
  leBytes 8 val

/-- Consecutive `usize` words in memory, each little-endian. -/
def leWords : List Nat → List UInt8
  | [] => []
  | val :: vals => toLeBytes val ++ leWords vals

/-- The little-endian `usize` word at byte offset `off` of a buffer. -/
def wordAt (data : List UInt8) (off : Nat) : Nat :=
  leValue ((data.drop off).take 8)

@[simp] theorem length_leBytes (w n : Nat) : (leBytes w n).length = w := by
  induction w generalizing n with
  | zero => rfl
  | succ w inductionHypothesis => simp [leBytes, inductionHypothesis]

@[simp] theorem length_toLeBytes (val : Nat) : (toLeBytes val).length = 8 :=
  length_leBytes 8 val

@[simp] theorem leWords_nil : leWords [] = [] := rfl

@[simp] theorem leWords_cons (val : Nat) (vals : List Nat) :
    leWords (val :: vals) = toLeBytes val ++ leWords vals := rfl

@[simp] theorem leWords_append (xs ys : List Nat) :
    leWords (xs ++ ys) = leWords xs ++ leWords ys := by
  induction xs with
  | nil => rfl
  | cons x xs inductionHypothesis => simp [inductionHypothesis]

@[simp] theorem length_leWords (vals : List Nat) :
    (leWords vals).length = 8 * vals.length := by
  induction vals with
  | nil => rfl
  | cons val vals inductionHypothesis =>
      simp only [leWords_cons, List.length_append, length_toLeBytes,
        inductionHypothesis, List.length_cons]
      omega

theorem leValue_leBytes (w n : Nat) : leValue (leBytes w n) = n % 256 ^ w := by
  induction w generalizing n with
  | zero => simp [leBytes, leValue, Nat.mod_one]
  | succ w inductionHypothesis =>
      have lowByte : (UInt8.ofNat n).toNat = n % 256 := rfl
      rw [leBytes, leValue, inductionHypothesis, lowByte, Nat.pow_succ', Nat.mod_mul]

/-- Reading the `i`-th word back from a run of words gives it modulo `2 ^ 64`. -/
theorem wordAt_leWords (vals : List Nat) (rest : List UInt8) :
    ∀ (i : Nat) (inRange : i < vals.length),
      wordAt (leWords vals ++ rest) (8 * i) = vals[i] % 2 ^ 64 := by
  induction vals with
  | nil => intro i inRange; simp at inRange
  | cons val vals inductionHypothesis =>
      intro i inRange
      cases i with
      | zero =>
          simp only [wordAt, Nat.mul_zero, List.drop_zero, leWords_cons,
            List.append_assoc, List.getElem_cons_zero]
          rw [List.take_left' (length_toLeBytes val), toLeBytes, leValue_leBytes,
            show (256 : Nat) ^ 8 = 2 ^ 64 by decide]
      | succ i =>
          have skip : 8 * (i + 1) = (toLeBytes val).length + 8 * i := by
            simp only [length_toLeBytes]
            omega
          simp only [List.length_cons, Nat.add_lt_add_iff_right] at inRange
          simpa only [wordAt, skip, leWords_cons, List.append_assoc, List.drop_append,
            List.getElem_cons_succ] using inductionHypothesis i inRange

theorem leValue_lt (bytes : List UInt8) : leValue bytes < 256 ^ bytes.length := by
  induction bytes with
  | nil => exact Nat.one_pos
  | cons byte bytes inductionHypothesis =>
      have lowByte : byte.toNat < 256 := byte.toBitVec.isLt
      rw [leValue, List.length_cons, Nat.pow_succ]
      omega

theorem wordAt_lt (data : List UInt8) (off : Nat) : wordAt data off < 2 ^ 64 :=
  calc wordAt data off < 256 ^ ((data.drop off).take 8).length := leValue_lt _
    _ ≤ 256 ^ 8 := Nat.pow_le_pow_right (by decide) (List.length_take_le _ _)
    _ = 2 ^ 64 := by decide

/-- Past a run of words, offsets count from its end. -/
theorem wordAt_leWords_skip (vals : List Nat) (rest : List UInt8) (off : Nat) :
    wordAt (leWords vals ++ rest) (8 * vals.length + off) = wordAt rest off := by
  rw [wordAt, ← length_leWords, List.drop_append, wordAt]

theorem toLeBytes_zero : toLeBytes 0 = List.replicate 8 0 := rfl

/-! ## `UserStack` -/

/-- `UserStack`: the cursor `sp` is the address of the lowest byte pushed. -/
structure UserStack where
  sp : Nat
  deriving DecidableEq, Repr

/-- The two locals of `init_stack` that every `UserStack` method takes by
`&mut`: the cursor `stack` and the buffer `data`.  `none` is a panic. -/
abbrev StackM := StateT (UserStack × List UInt8) Option

namespace UserStack

/-- `UserStack::new`. -/
def new (sp : Nat) : UserStack :=
  ⟨sp⟩

/-- `UserStack::get_sp`. -/
def getSp : StackM Nat := do
  let (stack, _) ← get
  pure stack.sp

/-- `UserStack::push`: move the cursor down by `src.len()` and prepend `src` to
the stack data (`stack_data.splice(0..0, src)`). -/
def push (src : List UInt8) : StackM Unit :=
  modify fun (stack, stackData) => (⟨usizeSub stack.sp src.length⟩, src ++ stackData)

/-- `UserStack::push_usize_slice`: the loop `for val in src.iter().rev()`
pushes the words from the last one down to the first, so that they lie in
memory in their original order. -/
def pushUsizeSlice (src : List Nat) : StackM Unit :=
  src.reverse.forM fun val => push (toLeBytes val)

/-- `UserStack::push_str`: push a NUL byte, then the string, and return the
address of the string's first byte. -/
def pushStr (str : List UInt8) : StackM Nat := do
  push [0]
  push str
  getSp

end UserStack

/-! ### What each push does

Started from `UserStack::new(sp0)` and an empty buffer, the cursor always sits
`data.len()` bytes below `sp0`, wrapped to a `usize`.  Each lemma below runs one
method from a state of that shape, followed by any continuation. -/

/-- The state whose buffer is `stackData` and whose cursor sits
`stackData.len()` bytes below `sp0`. -/
def cursorAt (sp0 : Nat) (stackData : List UInt8) : UserStack × List UInt8 :=
  (⟨usizeSub sp0 stackData.length⟩, stackData)

/-- The bytes the strings `strs` occupy once `push_str` has pushed them all,
lowest address first: the last string pushed is at the bottom. -/
def packStrs : List (List UInt8) → List UInt8
  | [] => []
  | str :: strs => packStrs strs ++ (str ++ [0])

/-- How far below the stack top each string starts, when the strings are
pushed on a buffer already `base` bytes deep. -/
def strDepths (base : Nat) : List (List UInt8) → List Nat
  | [] => []
  | str :: strs => (base + (str.length + 1)) :: strDepths (base + (str.length + 1)) strs

@[simp] theorem length_strDepths (base : Nat) (strs : List (List UInt8)) :
    (strDepths base strs).length = strs.length := by
  induction strs generalizing base with
  | nil => rfl
  | cons str strs inductionHypothesis => simp [strDepths, inductionHypothesis]

section Runs

variable {α β : Type} (sp0 : Nat)

theorem getSp_run (stackData : List UInt8) (k : Nat → StackM α) :
    (UserStack.getSp >>= k).run (cursorAt sp0 stackData) =
      (k (usizeSub sp0 stackData.length)).run (cursorAt sp0 stackData) :=
  rfl

theorem lift_run (x : Option β) (state : UserStack × List UInt8) (k : β → StackM α) :
    (StateT.lift x >>= k).run state = x.bind fun a => (k a).run state := by
  cases x <;> rfl

theorem push_run (src stackData : List UInt8) (k : Unit → StackM α) :
    (UserStack.push src >>= k).run (cursorAt sp0 stackData) =
      (k ()).run (cursorAt sp0 (src ++ stackData)) := by
  simp [UserStack.push, cursorAt, Nat.add_comm]

theorem pushUsizeSlice_run (src : List Nat) (stackData : List UInt8) (k : Unit → StackM α) :
    (UserStack.pushUsizeSlice src >>= k).run (cursorAt sp0 stackData) =
      (k ()).run (cursorAt sp0 (leWords src ++ stackData)) := by
  induction src generalizing k with
  | nil => simp [UserStack.pushUsizeSlice]
  | cons val vals inductionHypothesis =>
      have split : UserStack.pushUsizeSlice (val :: vals) =
          UserStack.pushUsizeSlice vals >>= fun _ => UserStack.push (toLeBytes val) := by
        simp [UserStack.pushUsizeSlice, List.forM_append]
      rw [split, bind_assoc, inductionHypothesis, push_run, leWords_cons, List.append_assoc]

theorem pushStr_run (str stackData : List UInt8) (k : Nat → StackM α) :
    (UserStack.pushStr str >>= k).run (cursorAt sp0 stackData) =
      (k (usizeSub sp0 (str ++ 0 :: stackData).length)).run
        (cursorAt sp0 (str ++ 0 :: stackData)) := by
  simp only [UserStack.pushStr, bind_assoc, push_run, List.singleton_append]
  rfl

theorem mapM_pushStr_run (strs : List (List UInt8)) (stackData : List UInt8)
    (k : List Nat → StackM α) :
    (strs.mapM UserStack.pushStr >>= k).run (cursorAt sp0 stackData) =
      (k ((strDepths stackData.length strs).map (usizeSub sp0))).run
        (cursorAt sp0 (packStrs strs ++ stackData)) := by
  induction strs generalizing stackData k with
  | nil => simp only [List.mapM_nil, pure_bind, packStrs, strDepths, List.map_nil, List.nil_append]
  | cons str strs inductionHypothesis =>
      have depth : (str ++ 0 :: stackData).length = stackData.length + (str.length + 1) := by
        simp only [List.length_append, List.length_cons]
        omega
      simp only [List.mapM_cons, bind_assoc, pure_bind, pushStr_run, inductionHypothesis]
      simp only [depth, packStrs, strDepths, List.map_cons, List.append_assoc,
        List.singleton_append]

end Runs

/-! ### Strings on the stack -/

/-- The NUL-terminated string `str` starts `depth` bytes below the top of the
buffer `data`. -/
def StrAtDepth (data : List UInt8) (depth : Nat) (str : List UInt8) : Prop :=
  ∃ below above, data = below ++ (str ++ 0 :: above) ∧ (str ++ 0 :: above).length = depth

/-- Later pushes only prepend, so a string already on the stack stays where it is. -/
theorem StrAtDepth.prepend {data : List UInt8} {depth : Nat} {str : List UInt8}
    (held : StrAtDepth data depth str) (bytes : List UInt8) :
    StrAtDepth (bytes ++ data) depth str := by
  obtain ⟨below, above, layout, deep⟩ := held
  exact ⟨bytes ++ below, above, by rw [layout, List.append_assoc], deep⟩

theorem StrAtDepth.read {data : List UInt8} {depth : Nat} {str : List UInt8}
    (held : StrAtDepth data depth str) :
    str.length < depth ∧ depth ≤ data.length ∧
      (data.drop (data.length - depth)).take (str.length + 1) = str ++ [0] := by
  obtain ⟨below, above, rfl, deep⟩ := held
  subst deep
  refine ⟨by simp, by simp, ?_⟩
  rw [List.length_append, Nat.add_sub_cancel, List.drop_left,
    List.take_append_eq_append_take, List.take_of_length_le (by simp)]
  simp

theorem pushStrs_strAtDepth (strs : List (List UInt8)) (stackData : List UInt8) :
    ∀ (i : Nat) (inRange : i < strs.length),
      StrAtDepth (packStrs strs ++ stackData)
        ((strDepths stackData.length strs).get ⟨i, by simpa using inRange⟩) strs[i] := by
  induction strs generalizing stackData with
  | nil => intro i inRange; simp at inRange
  | cons str strs inductionHypothesis =>
      have depth : (str ++ 0 :: stackData).length = stackData.length + (str.length + 1) := by
        simp only [List.length_append, List.length_cons]
        omega
      intro i inRange
      cases i with
      | zero =>
          exact ⟨packStrs strs, stackData, by simp [packStrs], by simp [strDepths, depth]⟩
      | succ i =>
          have later := inductionHypothesis (str ++ 0 :: stackData) i
            (by simpa using inRange)
          simp only [List.get_eq_getElem, depth] at later
          simpa [packStrs, strDepths] using later

/-! ### Any sequence of pushes -/

/-- A call on a `UserStack` and its buffer. -/
inductive StackCall where
  | push (src : List UInt8)
  | pushStr (str : List UInt8)
  | pushUsizeSlice (src : List Nat)

namespace StackCall

/-- The call; `push_str` returns the address of its string. -/
def exec : StackCall → StackM (Option Nat)
  | .push src => do
    UserStack.push src
    pure none
  | .pushStr str => do
    let addr ← UserStack.pushStr str
    pure (some addr)
  | .pushUsizeSlice src => do
    UserStack.pushUsizeSlice src
    pure none

/-- The bytes the call prepends to the buffer. -/
def bytes : StackCall → List UInt8
  | .push src => src
  | .pushStr str => str ++ [0]
  | .pushUsizeSlice src => leWords src

/-- What the call returns on the buffer `stackData` below `sp0`. -/
def result (sp0 : Nat) (stackData : List UInt8) : StackCall → Option Nat
  | .pushStr str => some (usizeSub sp0 (str ++ 0 :: stackData).length)
  | _ => none

/-- The step lemma: a call prepends its bytes and keeps the cursor `data.len()`
bytes below `sp0`. -/
theorem exec_run {α : Type} (sp0 : Nat) (call : StackCall) (stackData : List UInt8)
    (k : Option Nat → StackM α) :
    (call.exec >>= k).run (cursorAt sp0 stackData) =
      (k (call.result sp0 stackData)).run (cursorAt sp0 (call.bytes ++ stackData)) := by
  cases call with
  | push src => simp only [exec, bind_assoc, push_run, pure_bind, result, bytes]
  | pushStr str =>
    simp only [exec, bind_assoc, pushStr_run, pure_bind, result, bytes, List.append_assoc,
      List.singleton_append]
  | pushUsizeSlice src => simp only [exec, bind_assoc, pushUsizeSlice_run, pure_bind, result, bytes]

end StackCall

/-- The calls in order, with what each returned. -/
def runStackCalls (calls : List StackCall) : StackM (List (Option Nat)) :=
  calls.mapM StackCall.exec

/-- The run lemma: from a buffer below `sp0`, a sequence of calls only prepends to
it, and every string a `push_str` of the sequence pushed still lies at the depth
its returned address names. -/
theorem runStackCalls_run (sp0 : Nat) :
    ∀ (calls : List StackCall) (stackData : List UInt8), ∃ results newer,
      (runStackCalls calls).run (cursorAt sp0 stackData) =
        some (results, cursorAt sp0 (newer ++ stackData)) ∧
      ∀ (i : Nat) (str : List UInt8) (addr : Nat), calls[i]? = some (.pushStr str) →
        results[i]? = some (some addr) →
          ∃ depth, StrAtDepth (newer ++ stackData) depth str ∧ addr = usizeSub sp0 depth
  | [], stackData => ⟨[], [], rfl, fun i _ _ _ returned => by simp at returned⟩
  | call :: calls, stackData => by
    obtain ⟨results, newer, ran, located⟩ := runStackCalls_run sp0 calls (call.bytes ++ stackData)
    refine ⟨call.result sp0 stackData :: results, newer ++ call.bytes, ?_, ?_⟩
    · simp only [runStackCalls, List.mapM_cons] at ran ⊢
      rw [StackCall.exec_run, StateT.run_bind, ran, List.append_assoc]
      rfl
    · intro i str addr called returned
      cases i with
      | zero =>
        simp only [List.getElem?_cons_zero, Option.some.injEq] at called returned
        subst called
        simp only [StackCall.result, Option.some.injEq] at returned
        exact ⟨_, ⟨newer, stackData, by simp [StackCall.bytes], rfl⟩, returned.symm⟩
      | succ i =>
        rw [List.getElem?_cons_succ] at called returned
        obtain ⟨depth, held, rfl⟩ := located i str addr called returned
        exact ⟨depth, by rwa [List.append_assoc], rfl⟩

theorem leWords_eq_flatMap (vals : List Nat) : leWords vals = vals.flatMap toLeBytes := by
  induction vals with
  | nil => rfl
  | cons val vals inductionHypothesis => rw [leWords, inductionHypothesis, List.flatMap_cons]

theorem new_eq_cursorAt {sp0 : Nat} (word : sp0 < 2 ^ 64) :
    (UserStack.new sp0, ([] : List UInt8)) = cursorAt sp0 [] := by
  simp [UserStack.new, cursorAt, usizeSub_of_le (Nat.zero_le sp0) word]

/-- Every sequence of `push`, `push_str` and `push_usize_slice` calls from
`UserStack::new(sp0)` and an empty buffer, so after every call of any sequence:
without cursor underflow, `sp + data.len() = sp0`, and each string an earlier
`push_str(s)` placed at the address `a` it returned still reads
`data[a - sp ..< a - sp + |s|] = s` with a NUL after it; and `push_usize_slice(xs)`
prepends the 8-byte little-endian encodings of `xs` in their own order. -/
theorem userStack_pushInvariants (sp0 : Nat) (word : sp0 < 2 ^ 64) (calls : List StackCall) :
    ∃ results stack data,
      (runStackCalls calls).run (UserStack.new sp0, []) = some (results, stack, data) ∧
      (data.length ≤ sp0 →
        stack.sp + data.length = sp0 ∧
        ∀ (i : Nat) (str : List UInt8) (addr : Nat), calls[i]? = some (.pushStr str) →
          results[i]? = some (some addr) →
            (data.drop (addr - stack.sp)).take str.length = str ∧
              data[addr - stack.sp + str.length]? = some 0) ∧
      ∀ (stackData : List UInt8) (src : List Nat),
        (UserStack.pushUsizeSlice src).run (cursorAt sp0 stackData) =
          some ((), cursorAt sp0 (src.flatMap toLeBytes ++ stackData)) := by
  obtain ⟨results, data, ran, located⟩ := runStackCalls_run sp0 calls []
  rw [List.append_nil] at ran located
  rw [new_eq_cursorAt word]
  refine ⟨results, _, data, ran, fun fits => ⟨?_, fun i str addr called returned => ?_⟩,
    fun stackData src => ?_⟩
  · show usizeSub sp0 data.length + data.length = sp0
    rw [usizeSub_of_le fits word]
    omega
  · obtain ⟨depth, held, rfl⟩ := located i str addr called returned
    obtain ⟨shorter, deep, bytes⟩ := held.read
    have offset : usizeSub sp0 depth - usizeSub sp0 data.length = data.length - depth := by
      rw [usizeSub_of_le (by omega) word, usizeSub_of_le fits word]
      omega
    show (data.drop (usizeSub sp0 depth - usizeSub sp0 data.length)).take str.length = str ∧
      data[usizeSub sp0 depth - usizeSub sp0 data.length + str.length]? = some 0
    rw [offset]
    constructor
    · have front := congrArg (List.take str.length) bytes
      rwa [List.take_take, Nat.min_eq_left (Nat.le_succ _), List.take_left' rfl] at front
    · rw [← List.getElem?_drop, ← List.getElem?_take_of_lt (Nat.lt_succ_self str.length), bytes]
      simp
  · have pushed := pushUsizeSlice_run sp0 src stackData pure
    rw [bind_pure] at pushed
    rw [pushed, leWords_eq_flatMap]
    rfl

theorem userStack_pushInvariants_small :
    (4096 : Nat) < 2 ^ 64 ∧
      ∃ results stack data,
        (runStackCalls [.pushStr [0x61], .pushUsizeSlice [7], .push [1, 2]]).run
            (UserStack.new 4096, []) = some (results, stack, data) ∧
        (data.length ≤ 4096 →
          stack.sp + data.length = 4096 ∧
          ∀ (i : Nat) (str : List UInt8) (addr : Nat),
            [StackCall.pushStr [0x61], .pushUsizeSlice [7], .push [1, 2]][i]? = some (.pushStr str) →
            results[i]? = some (some addr) →
              (data.drop (addr - stack.sp)).take str.length = str ∧
                data[addr - stack.sp + str.length]? = some 0) ∧
        ∀ (stackData : List UInt8) (src : List Nat),
          (UserStack.pushUsizeSlice src).run (cursorAt 4096 stackData) =
            some ((), cursorAt 4096 (src.flatMap toLeBytes ++ stackData)) :=
  ⟨by decide, userStack_pushInvariants 4096 (by decide) _⟩

/-- `s.as_bytes()` for an ASCII string `s`. -/
def asciiBytes (s : String) : List UInt8 :=
  s.toList.map Char.toUInt8

/-- The sixteen bytes `"0123456789abcdef"` that stand for the random seed. -/
def randomStr : List UInt8 :=
  asciiBytes "0123456789abcdef"

/-- `"\0".repeat(8)`. -/
def paddingNull : List UInt8 :=
  List.replicate 8 0

/-- One turn of the loop over `auxv.iter_mut()` in `init_stack`: back-patch the
`RANDOM` entry with the seed's address and the `EXECFN` entry with
`argv_slice[0]`, which panics (`none`) when there is no argument. -/
def patchAuxvEntry (randomStrPos : Nat) (argvSlice : List Nat) (entry : AuxvEntry) :
    Option AuxvEntry := do
  let entry := if entry.getType = .RANDOM then { entry with auxvVal := randomStrPos } else entry
  if entry.getType = .EXECFN then
    let pos ← argvSlice[0]?
    pure { entry with auxvVal := pos }
  else
    pure entry

/-- The first part of `init_stack`: the seed, then the environment and argument
strings; returns `random_str_pos`, `envs_slice` and `argv_slice`. -/
def pushStrings (args envs : List (List UInt8)) : StackM (Nat × List Nat × List Nat) := do
  UserStack.push randomStr
  let randomStrPos ← UserStack.getSp
  let envsSlice ← envs.mapM UserStack.pushStr
  let argvSlice ← args.mapM UserStack.pushStr
  pure (randomStrPos, envsSlice, argvSlice)

/-- The padding of `init_stack` and its `assert!(stack.get_sp() % 16 == 0)`. -/
def alignStack : StackM Unit := do
  UserStack.push paddingNull
  let sp ← UserStack.getSp
  UserStack.push (List.replicate (sp % 16) 0)
  let sp ← UserStack.getSp
  if sp % 16 ≠ 0 then failure

/-- The words `init_stack` pushes last: the auxiliary vector, the `envp` and
`argv` pointers, each run ended by `padding_null`, and `argc`. -/
def pushWords (auxv : List AuxvEntry) (envsSlice argvSlice : List Nat) (argc : Nat) :
    StackM Unit := do
  UserStack.pushUsizeSlice (auxvWords auxv)
  UserStack.push paddingNull
  UserStack.pushUsizeSlice envsSlice
  UserStack.push paddingNull
  UserStack.pushUsizeSlice argvSlice
  UserStack.pushUsizeSlice [argc]

/-- `init_stack`: the stack bytes and the back-patched auxiliary vector, or
`none` where the Rust code panics. -/
def initStack (args envs : List (List UInt8)) (auxv : List AuxvEntry) (sp : Nat) :
    Option (List UInt8 × List AuxvEntry) :=
  let body : StackM (List AuxvEntry) := do
    let (randomStrPos, envsSlice, argvSlice) ← pushStrings args envs
    alignStack
    let auxv ← StateT.lift (auxv.mapM (patchAuxvEntry randomStrPos argvSlice))
    pushWords auxv envsSlice argvSlice args.length
    pure auxv
  (body.run (UserStack.new sp, [])).map fun (auxv, _, data) => (data, auxv)

section Phases

variable {α : Type} (sp0 : Nat)

theorem pushStrings_run (args envs : List (List UInt8)) (stackData : List UInt8)
    (k : Nat × List Nat × List Nat → StackM α) :
    (pushStrings args envs >>= k).run (cursorAt sp0 stackData) =
      (k (usizeSub sp0 (randomStr ++ stackData).length,
          (strDepths (randomStr ++ stackData).length envs).map (usizeSub sp0),
          (strDepths (packStrs envs ++ (randomStr ++ stackData)).length args).map
            (usizeSub sp0))).run
        (cursorAt sp0 (packStrs args ++ (packStrs envs ++ (randomStr ++ stackData)))) := by
  simp only [pushStrings, bind_assoc, push_run, getSp_run, mapM_pushStr_run, pure_bind]

theorem usizeSub_alignPad (stackData : List UInt8) :
    usizeSub sp0 (List.replicate (usizeSub sp0 stackData.length % 16) 0 ++ stackData).length
      % 16 = 0 := by
  simp only [List.length_append, List.length_replicate]
  unfold usizeSub
  omega

theorem alignStack_run (stackData : List UInt8) (k : Unit → StackM α) :
    (alignStack >>= k).run (cursorAt sp0 stackData) =
      (k ()).run (cursorAt sp0
        (List.replicate (usizeSub sp0 (paddingNull ++ stackData).length % 16) 0 ++
          (paddingNull ++ stackData))) := by
  simp only [alignStack, bind_assoc, push_run, getSp_run, usizeSub_alignPad, ne_eq,
    not_true_eq_false, if_false, pure_bind]

theorem pushWords_run (auxv : List AuxvEntry) (envsSlice argvSlice : List Nat) (argc : Nat)
    (stackData : List UInt8) (k : Unit → StackM α) :
    (pushWords auxv envsSlice argvSlice argc >>= k).run (cursorAt sp0 stackData) =
      (k ()).run (cursorAt sp0
        (leWords (argc :: (argvSlice ++ 0 :: (envsSlice ++ 0 :: auxvWords auxv))) ++
          stackData)) := by
  simp only [pushWords, bind_assoc, pushUsizeSlice_run, push_run, paddingNull,
    ← toLeBytes_zero]
  simp [List.append_assoc]

end Phases

/-- `app_stack_region`: build the stack whose top is `stack_base + stack_size`. -/
def appStackRegion (args envs : List (List UInt8)) (auxv : List AuxvEntry)
    (stackBase stackSize : Nat) : Option (List UInt8 × List AuxvEntry) :=
  let ustackBottom := stackBase
  let ustackTop := usizeAdd ustackBottom stackSize
  initStack args envs auxv ustackTop

end ThCore.ElfParser

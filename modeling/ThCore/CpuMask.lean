import Mathlib.Data.UInt
import Mathlib.Data.List.FinRange

/-!
# `CpuMask`: sets of CPUs as bitmaps

`CpuMask<SIZE>` of `vendor/cpumask`: a `Bitmap<SIZE>` of CPU indices.  The mask
is its bit function; no bit at or above `SIZE` is set, and the structure carries
that as a field.  The index searches it forwards to `bitmaps` (`first_index`,
`next_index`, `last_index`, `prev_index`) follow their documentation in this
crate: the first or last set bit, overall or strictly after or before an index.

Two parts of the crate are modelled:

* `CpuMask::from_raw_bits`, whose `value >> SIZE` and `1 << i` shift a `usize`.  A
  release build masks the shift amount to its low six bits, and so does `UInt64`.
  For `SIZE < 64` the mask holds exactly the bits of the value
  (`get_fromRawBits_of_lt`).  From `SIZE = 64` on, the assertion rejects, or the loop
  sets bits the value does not have (`fromRawBits_spec`).
* the double-ended iterator `Iter` of `&CpuMask`, with its two cursors `head` and
  `tail`.  Consumed from one end, it returns every set index once, in order, and
  then `None` (`ofMask_run_oneEnd`).  But neither cursor stops at an index the
  other one has already returned, so on a mask with one set index `next` and
  `next_back` both return it (`iter_meet_returnsTwice`).
-/

namespace ThCore

/-! ## Searching a range -/

/-- `find?` over `n - 1, ..., 1, 0` finds the greatest index below `n` that
satisfies `p`: the reversed range is the range mirrored by `n - 1 - ·`. -/
theorem find?_range_reverse_eq_some_iff {p : Nat → Bool} {i n : Nat} :
    (List.range n).reverse.find? p = some i ↔
      i < n ∧ p i = true ∧ ∀ j, i < j → j < n → p j = false := by
  rw [List.range_eq_range', List.reverse_range', List.find?_map, Option.map_eq_some']
  simp only [List.find?_range_eq_some, Function.comp_apply, List.mem_range, Bool.not_eq_true',
    Nat.zero_add]
  constructor
  · rintro ⟨j, ⟨held, below, least⟩, rfl⟩
    refine ⟨by omega, held, fun k above inside => ?_⟩
    have mirrored := least (n - 1 - k) (by omega)
    rwa [show n - 1 - (n - 1 - k) = k by omega] at mirrored
  · rintro ⟨inside, held, greatest⟩
    refine ⟨n - 1 - i, ⟨by rwa [show n - 1 - (n - 1 - i) = i by omega], by omega,
      fun k below => greatest _ (by omega) (by omega)⟩, by omega⟩

/-- In a list sorted by `R`, the elements after `j`, the first one that `p`
selects, that `p` selects are those `p` selects after `j` by `R`. -/
theorem filter_eq_of_filter_eq_cons {α : Type} {R : α → α → Prop} [DecidableRel R]
    {l : List α} (sorted : l.Pairwise R) {p q : α → Bool} {j : α} {rest : List α}
    (split : l.filter p = j :: rest) (irrefl : ¬R j j)
    (narrower : ∀ a, q a = (decide (R j a) && p a)) :
    l.filter q = rest := by
  have sortedSplit : (j :: rest).Pairwise R := split ▸ sorted.filter p
  calc l.filter q = (l.filter p).filter fun a => decide (R j a) := by
        rw [List.filter_filter]
        exact List.filter_congr fun a _ => narrower a
    _ = rest := by
        rw [split, List.filter_cons, if_neg (by simpa using irrefl)]
        exact List.filter_eq_self.mpr fun a member =>
          decide_eq_true (List.rel_of_pairwise_cons sortedSplit member)

/-! ## The mask -/

/-- `CpuMask<SIZE>`: the bits of its `Bitmap<SIZE>`. -/
structure CpuMask (SIZE : Nat) where
  bits : Nat → Bool
  fits : ∀ index, SIZE ≤ index → bits index = false

namespace CpuMask

variable {SIZE : Nat}

/-- `CpuMask::new` (`Bitmap::new()`): no bit set. -/
def new : CpuMask SIZE :=
  ⟨fun _ => false, fun _ _ => rfl⟩

/-- `CpuMask::get`. -/
def get (mask : CpuMask SIZE) (index : Nat) : Bool :=
  mask.bits index

/-- `Bitmap::set`, at an index below `SIZE`. -/
def set (mask : CpuMask SIZE) (index : Fin SIZE) (value : Bool) : CpuMask SIZE :=
  ⟨Function.update mask.bits index value, fun other high => by
    rw [Function.update_noteq (by omega)]
    exact mask.fits other high⟩

/-- `CpuMask::first_index`: the first set bit. -/
def firstIndex (mask : CpuMask SIZE) : Option Nat :=
  (List.range SIZE).find? mask.get

/-- `CpuMask::last_index`: the last set bit. -/
def lastIndex (mask : CpuMask SIZE) : Option Nat :=
  (List.range SIZE).reverse.find? mask.get

/-- `CpuMask::next_index`: the first set bit after `index`. -/
def nextIndex (mask : CpuMask SIZE) (index : Nat) : Option Nat :=
  (List.range SIZE).find? fun i => index < i && mask.get i

/-- `CpuMask::prev_index`: the last set bit before `index`. -/
def prevIndex (mask : CpuMask SIZE) (index : Nat) : Option Nat :=
  (List.range SIZE).reverse.find? fun i => i < index && mask.get i

@[simp] theorem get_new (index : Nat) : (new : CpuMask SIZE).get index = false :=
  rfl

@[simp] theorem get_set (mask : CpuMask SIZE) (index : Fin SIZE) (value : Bool) (other : Nat) :
    (mask.set index value).get other = if other = index then value else mask.get other := by
  simp [get, set, Function.update_apply]

theorem lt_of_get {mask : CpuMask SIZE} {index : Nat} (held : mask.get index = true) :
    index < SIZE := by
  by_contra high
  rw [get, mask.fits index (by omega)] at held
  cases held

theorem firstIndex_eq_some_iff {mask : CpuMask SIZE} {index : Nat} :
    mask.firstIndex = some index ↔ mask.get index = true ∧ ∀ j < index, mask.get j = false := by
  simp only [firstIndex, List.find?_range_eq_some, List.mem_range, Bool.not_eq_true']
  exact ⟨fun ⟨held, _, least⟩ => ⟨held, least⟩, fun ⟨held, least⟩ => ⟨held, lt_of_get held, least⟩⟩

theorem lastIndex_eq_some_iff {mask : CpuMask SIZE} {index : Nat} :
    mask.lastIndex = some index ↔ mask.get index = true ∧ ∀ j, index < j → mask.get j = false := by
  rw [lastIndex, find?_range_reverse_eq_some_iff]
  constructor
  · rintro ⟨-, held, greatest⟩
    refine ⟨held, fun j above => ?_⟩
    by_cases inside : j < SIZE
    · exact greatest j above inside
    · exact mask.fits j (by omega)
  · rintro ⟨held, greatest⟩
    exact ⟨lt_of_get held, held, fun j above _ => greatest j above⟩

end CpuMask

/-! ## `from_raw_bits` -/

/-- The bit test of `from_raw_bits`: `value & (1 << i) != 0` reads bit `i mod 64`. -/
theorem and_shiftLeft_ne_zero (value shift : UInt64) :
    value &&& (1 <<< shift) ≠ 0 ↔ value.toNat.testBit (shift.toNat % 64) = true := by
  have one : (1 <<< shift : UInt64).toNat = 2 ^ (shift.toNat % 64) := by
    show (1 <<< (shift.toNat % 64)) % 2 ^ 64 = _
    rw [Nat.one_shiftLeft, Nat.mod_eq_of_lt (Nat.pow_lt_pow_right (by decide) (Nat.mod_lt _ (by decide)))]
  have toNat_ne : ∀ x : UInt64, x ≠ 0 ↔ x.toNat ≠ 0 :=
    fun x => ⟨fun nonzero zero => nonzero (UInt64.toNat.inj zero), fun nonzero zero => nonzero (by rw [zero]; rfl)⟩
  rw [toNat_ne, show (value &&& (1 <<< shift)).toNat = value.toNat &&& (1 <<< shift : UInt64).toNat from rfl,
    one]
  constructor
  · intro nonzero
    obtain ⟨i, set⟩ := Nat.ne_zero_implies_bit_true nonzero
    rw [Nat.testBit_and, Nat.testBit_two_pow, Bool.and_eq_true, decide_eq_true_eq] at set
    rw [set.2]
    exact set.1
  · intro set zero
    have bit := Nat.testBit_and value.toNat (2 ^ (shift.toNat % 64)) (shift.toNat % 64)
    rw [zero, Nat.zero_testBit, set, Nat.testBit_two_pow_self] at bit
    cases bit

/-- The assertion of `from_raw_bits`: `value >> SIZE == 0` asks for fewer than
`SIZE mod 64` significant bits. -/
theorem shiftRight_eq_zero_iff (value : UInt64) (SIZE : Nat) :
    value >>> SIZE.toUInt64 = 0 ↔ value.toNat < 2 ^ (SIZE % 64) := by
  have shifted : (value >>> SIZE.toUInt64).toNat = value.toNat / 2 ^ (SIZE % 64) := by
    show value.toNat >>> (SIZE % 2 ^ 64 % 64) = _
    rw [Nat.mod_mod_of_dvd SIZE (by decide : 64 ∣ 2 ^ 64), Nat.shiftRight_eq_div_pow]
  constructor
  · intro zero
    have := congrArg UInt64.toNat zero
    rw [shifted] at this
    exact (Nat.div_eq_zero_iff (Nat.two_pow_pos _)).mp this
  · intro small
    apply UInt64.toNat.inj
    rw [shifted]
    exact (Nat.div_eq_zero_iff (Nat.two_pow_pos _)).mpr small

/-- One turn of the loop of `from_raw_bits`. -/
def fromRawBitsStep {SIZE : Nat} (value : UInt64) (bitMap : CpuMask SIZE) (i : Fin SIZE) :
    CpuMask SIZE :=
  if value &&& (1 <<< i.val.toUInt64) ≠ 0 then bitMap.set i true else bitMap

/-- `CpuMask::from_raw_bits`, or `none` where its `assert!` fails. -/
def fromRawBits (SIZE : Nat) (value : UInt64) : Option (CpuMask SIZE) :=
  if value >>> SIZE.toUInt64 = 0 then
    some ((List.finRange SIZE).foldl (fromRawBitsStep value) CpuMask.new)
  else none

/-- The loop sets bit `i` exactly when it visits `i` and `value & (1 << i)` is
nonzero. -/
theorem get_foldl_fromRawBitsStep {SIZE : Nat} (value : UInt64) (index : Nat) :
    ∀ (indices : List (Fin SIZE)) (bitMap : CpuMask SIZE),
      (indices.foldl (fromRawBitsStep value) bitMap).get index =
        (bitMap.get index || decide (∃ i ∈ indices, i.val = index) &&
          value.toNat.testBit (index % 2 ^ 64 % 64))
  | [], bitMap => by simp
  | i :: indices, bitMap => by
    rw [List.foldl_cons, get_foldl_fromRawBitsStep value index indices]
    by_cases visited : i.val = index
    · subst visited
      have wrapped : i.val.toUInt64.toNat = i.val % 2 ^ 64 := rfl
      have member : ∃ j ∈ i :: indices, j.val = i.val := ⟨i, List.mem_cons_self i indices, rfl⟩
      rw [decide_eq_true member, Bool.true_and, fromRawBitsStep]
      by_cases set : value &&& (1 <<< i.val.toUInt64) ≠ 0
      · have bit := (and_shiftLeft_ne_zero value i.val.toUInt64).mp set
        rw [wrapped] at bit
        rw [if_pos set, CpuMask.get_set, if_pos rfl, bit, Bool.true_or, Bool.or_true]
      · have bit : value.toNat.testBit (i.val % 2 ^ 64 % 64) = false := by
          rw [← wrapped]
          simpa using mt (and_shiftLeft_ne_zero value i.val.toUInt64).mpr set
        rw [if_neg set, bit, Bool.and_false, Bool.or_false]
    · have other : index ≠ i.val := fun same => visited same.symm
      simp only [fromRawBitsStep]
      split_ifs <;> simp [other, visited]

/-- The mask `from_raw_bits` builds, when its assertion holds: bit `i` is set for
`i < SIZE` exactly when `value` has bit `i mod 64`. -/
theorem get_fromRawBits {SIZE : Nat} {value : UInt64} {mask : CpuMask SIZE}
    (built : fromRawBits SIZE value = some mask) (index : Nat) :
    mask.get index = (decide (index < SIZE) && value.toNat.testBit (index % 64)) := by
  unfold fromRawBits at built
  split_ifs at built
  cases built
  rw [get_foldl_fromRawBitsStep, CpuMask.get_new, Bool.false_or]
  by_cases inRange : index < SIZE
  · have member : ∃ i ∈ List.finRange SIZE, i.val = index :=
      ⟨⟨index, inRange⟩, List.mem_finRange _, rfl⟩
    rw [decide_eq_true member, decide_eq_true inRange]
    rw [Nat.mod_mod_of_dvd index (by decide : 64 ∣ 2 ^ 64)]
  · have absent : ¬∃ i ∈ List.finRange SIZE, i.val = index := fun ⟨i, _, same⟩ => by omega
    rw [decide_eq_false absent, decide_eq_false inRange]
    rfl

/-- Below 64 bits, `from_raw_bits` accepts exactly the values of fewer than
`SIZE` bits. -/
theorem exists_fromRawBits_iff {SIZE : Nat} (narrow : SIZE < 64) (value : UInt64) :
    (∃ mask, fromRawBits SIZE value = some mask) ↔ value.toNat < 2 ^ SIZE := by
  have check := shiftRight_eq_zero_iff value SIZE
  rw [Nat.mod_eq_of_lt narrow] at check
  rw [← check, fromRawBits]
  split_ifs with accepted <;> simp [accepted]

/-- Below 64 bits, the mask holds exactly the bits of the value. -/
theorem get_fromRawBits_of_lt {SIZE : Nat} (narrow : SIZE < 64) {value : UInt64}
    {mask : CpuMask SIZE} (built : fromRawBits SIZE value = some mask) (index : Nat) :
    mask.get index = (decide (index < SIZE) && value.toNat.testBit index) := by
  rw [get_fromRawBits built index]
  by_cases inRange : index < SIZE
  · rw [Nat.mod_eq_of_lt (by omega)]
  · simp [inRange]

/-- From 64 bits on, a mask built from a nonzero value has a bit at 64 or above:
bit `i` of the value comes back at `i + 64`. -/
theorem exists_high_bit_of_fromRawBits {SIZE : Nat} (wide : 64 ≤ SIZE) {value : UInt64}
    (nonzero : value ≠ 0) {mask : CpuMask SIZE} (built : fromRawBits SIZE value = some mask) :
    ∃ index, 64 ≤ index ∧ index < SIZE ∧ mask.get index = true ∧
      value.toNat.testBit index = false := by
  have accepted : value >>> SIZE.toUInt64 = 0 := by
    unfold fromRawBits at built
    split_ifs at built with accepted
    exact accepted
  have small := (shiftRight_eq_zero_iff value SIZE).mp accepted
  have valueNonzero : value.toNat ≠ 0 := fun zero => nonzero (UInt64.toNat.inj zero)
  obtain ⟨bit, set⟩ := Nat.ne_zero_implies_bit_true valueNonzero
  have below : bit < SIZE % 64 := by
    by_contra high
    have beyond : value.toNat.testBit bit = false :=
      Nat.testBit_lt_two_pow (small.trans_le (Nat.pow_le_pow_right (by decide) (by omega)))
    rw [beyond] at set
    cases set
  have word : value.toNat < 2 ^ 64 := value.toNat_lt_size
  refine ⟨64 + bit, by omega, by omega, ?_,
    Nat.testBit_lt_two_pow (word.trans_le (Nat.pow_le_pow_right (by decide) (by omega)))⟩
  rw [get_fromRawBits built, decide_eq_true (show 64 + bit < SIZE by omega), Bool.true_and,
    show (64 + bit) % 64 = bit by omega]
  exact set

/-- `from_raw_bits` for every `SIZE` and value: below 64 bits it accepts exactly the
values of fewer than `SIZE` bits and sets exactly their bits; from 64 bits on, for
every nonzero value, it either panics or sets a bit at an index of 64 or more, where
a `usize` has none. -/
theorem fromRawBits_spec :
    (∀ SIZE < 64, ∀ value : UInt64,
      (value.toNat < 2 ^ SIZE ↔ ∃ mask, fromRawBits SIZE value = some mask) ∧
      ∀ mask, fromRawBits SIZE value = some mask →
        ∀ index, mask.get index = (decide (index < SIZE) && value.toNat.testBit index)) ∧
    (∀ SIZE, 64 ≤ SIZE → ∀ value : UInt64, value ≠ 0 →
      fromRawBits SIZE value = none ∨
        ∃ mask, fromRawBits SIZE value = some mask ∧
          ∃ index, 64 ≤ index ∧ index < SIZE ∧ mask.get index = true ∧
            value.toNat.testBit index = false) := by
  refine ⟨fun SIZE narrow value => ⟨(exists_fromRawBits_iff narrow value).symm,
    fun mask built => get_fromRawBits_of_lt narrow built⟩, fun SIZE wide value nonzero => ?_⟩
  cases built : fromRawBits SIZE value with
  | none => exact .inl rfl
  | some mask => exact .inr ⟨mask, rfl, exists_high_bit_of_fromRawBits wide nonzero built⟩

/-- `CpuMask::<64>::from_raw_bits(1)`: the check shifts by `64 % 64 = 0`. -/
theorem fromRawBits_spec_sixtyFour :
    (1 : UInt64) ≠ 0 ∧
      (fromRawBits 64 1 = none ∨
        ∃ mask, fromRawBits 64 1 = some mask ∧
          ∃ index, 64 ≤ index ∧ index < 64 ∧ mask.get index = true ∧
            (1 : UInt64).toNat.testBit index = false) :=
  ⟨by decide, fromRawBits_spec.2 64 (Nat.le_refl 64) 1 (by decide)⟩

/-! ## The double-ended iterator -/

/-- `Iter<'_, SIZE>`: the cursors `head` and `tail` over the mask `data`. -/
structure Iter (SIZE : Nat) where
  head : Option Nat
  tail : Option Nat
  data : CpuMask SIZE

namespace Iter

variable {SIZE : Nat}

/-- `(&mask).into_iter()`. -/
def ofMask (mask : CpuMask SIZE) : Iter SIZE :=
  ⟨none, some (SIZE + 1), mask⟩

/-- `Iterator::next`. -/
def next (iter : Iter SIZE) : Iter SIZE × Option Nat :=
  let result :=
    match iter.head with
    | none => iter.data.firstIndex
    | some index => if index ≥ SIZE then none else iter.data.nextIndex index
  match result with
  | some index =>
    match iter.tail with
    | some tail =>
      if tail < index then ({ iter with head := some (SIZE + 1), tail := none }, none)
      else ({ iter with head := some index }, result)
    | none => ({ iter with head := some (SIZE + 1) }, none)
  | none => ({ iter with head := some (SIZE + 1) }, result)

/-- `DoubleEndedIterator::next_back`. -/
def nextBack (iter : Iter SIZE) : Iter SIZE × Option Nat :=
  let result :=
    match iter.tail with
    | none => none
    | some index => if index ≥ SIZE then iter.data.lastIndex else iter.data.prevIndex index
  match result with
  | some index =>
    match iter.head with
    | some head =>
      if head > index then ({ iter with head := some (SIZE + 1), tail := none }, none)
      else ({ iter with tail := some index }, result)
    | none => ({ iter with tail := some index }, result)
  | none => ({ iter with tail := none }, result)

/-- A call on the iterator. -/
inductive Call where
  | next
  | nextBack
  deriving DecidableEq, Repr

/-- One call. -/
def step (iter : Iter SIZE) : Call → Iter SIZE × Option Nat
  | .next => iter.next
  | .nextBack => iter.nextBack

/-- What a sequence of calls returns. -/
def run (iter : Iter SIZE) : List Call → List (Option Nat)
  | [] => []
  | call :: calls => (iter.step call).2 :: (iter.step call).1.run calls

/-! ### One end at a time

While the other cursor is untouched, each end of `Iter` is a list iterator: `next`
walks `ahead`, the set indices after `head` in increasing order, and `next_back`
walks `behind`, the set indices before `tail` in decreasing order. -/

/-- The indices `next` may still return: set, and after the head cursor when
there is one. -/
def after (mask : CpuMask SIZE) (head : Option Nat) (i : Nat) : Bool :=
  head.all (fun h => decide (h < i)) && mask.get i

/-- The indices `next_back` may still return: set, and before the tail cursor;
none once the tail cursor is gone. -/
def before (mask : CpuMask SIZE) (tail : Option Nat) (i : Nat) : Bool :=
  tail.any (fun t => decide (i < t)) && mask.get i

/-- What calls of `next` alone return from here, in order. -/
def ahead (iter : Iter SIZE) : List Nat :=
  (List.range SIZE).filter (after iter.data iter.head)

/-- What calls of `next_back` alone return from here, in order. -/
def behind (iter : Iter SIZE) : List Nat :=
  (List.range SIZE).reverse.filter (before iter.data iter.tail)

@[simp] theorem after_none (mask : CpuMask SIZE) : after mask none = mask.get :=
  rfl

@[simp] theorem after_some (mask : CpuMask SIZE) (h : Nat) :
    after mask (some h) = fun i => decide (h < i) && mask.get i :=
  rfl

@[simp] theorem before_none (mask : CpuMask SIZE) : before mask none = fun _ => false :=
  rfl

@[simp] theorem before_some (mask : CpuMask SIZE) (t : Nat) :
    before mask (some t) = fun i => decide (i < t) && mask.get i :=
  rfl

/-- The step lemma of the front: while the back cursor is untouched, `next` is
one step of a list iterator over `ahead`. -/
theorem next_eq (iter : Iter SIZE) (untouched : iter.tail = some (SIZE + 1)) :
    iter.next = ({ iter with head := some (iter.ahead.head?.getD (SIZE + 1)) }, iter.ahead.head?) := by
  obtain ⟨head, tail, data⟩ := iter
  obtain rfl : tail = some (SIZE + 1) := untouched
  simp only [ahead, List.filter_head?]
  rcases head with _ | h
  · simp only [next, CpuMask.firstIndex, after_none]
    split
    next index found =>
      have := List.mem_range.mp (List.mem_of_find?_eq_some found)
      simp [found, show ¬SIZE + 1 < index by omega]
    next found => simp [found]
  · by_cases high : h ≥ SIZE
    · have exhausted : (List.range SIZE).find? (after data (some h)) = none :=
        List.find?_eq_none.mpr fun i member => by
          have := List.mem_range.mp member
          simp only [after_some, Bool.and_eq_true, decide_eq_true_eq, not_and]
          omega
      simp only [next, high, if_true, exhausted]
      rfl
    · simp only [next, high, if_false, CpuMask.nextIndex, after_some]
      split
      next index found =>
        have := List.mem_range.mp (List.mem_of_find?_eq_some found)
        simp [found, show ¬SIZE + 1 < index by omega]
      next found => simp [found]

/-- After `next`, what is left ahead is the rest of the list. -/
theorem ahead_next (iter : Iter SIZE) :
    ({ iter with head := some (iter.ahead.head?.getD (SIZE + 1)) } : Iter SIZE).ahead =
      iter.ahead.tail := by
  obtain ⟨head, tail, data⟩ := iter
  cases split : ahead ⟨head, tail, data⟩ with
  | nil =>
    refine List.filter_eq_nil_iff.mpr fun i member => ?_
    have := List.mem_range.mp member
    simp only [List.head?_nil, Option.getD_none, after_some, Bool.and_eq_true, decide_eq_true_eq,
      not_and]
    omega
  | cons j rest =>
    have firstAfter : after data head j = true :=
      (List.mem_filter.mp (split ▸ List.mem_cons_self j rest : j ∈ ahead ⟨head, tail, data⟩)).2
    refine filter_eq_of_filter_eq_cons (List.pairwise_lt_range SIZE) split (Nat.lt_irrefl j)
      fun a => ?_
    by_cases later : j < a
    · rcases head with _ | h
      · simp [later]
      · simp only [after_some, Bool.and_eq_true, decide_eq_true_eq] at firstAfter
        simp [later, show h < a by omega]
    · simp [later]

/-- The run lemma of the front: while the back cursor is untouched, `n` calls of
`next` return the first `n` entries of `ahead`, then `None`. -/
theorem run_next (iter : Iter SIZE) (untouched : iter.tail = some (SIZE + 1)) (n : Nat) :
    iter.run (List.replicate n .next) = (List.range n).map fun k => iter.ahead[k]? := by
  induction n generalizing iter with
  | zero => rfl
  | succ n inductionHypothesis =>
    rw [List.replicate_succ, run, step, next_eq iter untouched]
    dsimp only
    rw [inductionHypothesis _ (by exact untouched), ahead_next, List.range_succ_eq_map, List.map_cons,
      List.map_map, List.head?_eq_getElem?]
    simp [Function.comp_def]

/-- The step lemma of the back: while the front cursor is untouched,
`next_back` is one step of a list iterator over `behind`. -/
theorem nextBack_eq (iter : Iter SIZE) (untouched : iter.head = none) :
    iter.nextBack = ({ iter with tail := iter.behind.head? }, iter.behind.head?) := by
  obtain ⟨head, tail, data⟩ := iter
  obtain rfl : head = none := untouched
  simp only [behind, List.filter_head?]
  rcases tail with _ | t
  · have exhausted : (List.range SIZE).reverse.find? (before data none) = none :=
      List.find?_eq_none.mpr fun _ _ => by simp
    simp only [nextBack, exhausted]
  · by_cases high : t ≥ SIZE
    · have everySet : (List.range SIZE).reverse.find? (before data (some t)) =
          (List.range SIZE).reverse.find? data.get := by
        rw [← List.filter_head?, ← List.filter_head?, List.filter_congr fun i member => ?_]
        have := List.mem_range.mp (List.mem_reverse.mp member)
        simp [show i < t by omega]
      simp only [nextBack, high, if_true, CpuMask.lastIndex, everySet]
      split <;> rename_i found <;> rw [found]
    · simp only [nextBack, high, if_false, CpuMask.prevIndex, before_some]
      split <;> rename_i found <;> rw [found]

/-- After `next_back`, what is left behind is the rest of the list. -/
theorem behind_nextBack (iter : Iter SIZE) :
    ({ iter with tail := iter.behind.head? } : Iter SIZE).behind = iter.behind.tail := by
  obtain ⟨head, tail, data⟩ := iter
  cases split : behind ⟨head, tail, data⟩ with
  | nil => exact List.filter_eq_nil_iff.mpr fun _ _ => by simp
  | cons j rest =>
    have firstBefore : before data tail j = true :=
      (List.mem_filter.mp (split ▸ List.mem_cons_self j rest : j ∈ behind ⟨head, tail, data⟩)).2
    refine filter_eq_of_filter_eq_cons (List.pairwise_reverse.mpr (List.pairwise_lt_range SIZE))
      split (Nat.lt_irrefl j) fun a => ?_
    by_cases earlier : a < j
    · rcases tail with _ | t
      · simp at firstBefore
      · simp only [before_some, Bool.and_eq_true, decide_eq_true_eq] at firstBefore
        simp [earlier, show a < t by omega]
    · simp [earlier]

/-- The run lemma of the back: while the front cursor is untouched, `n` calls of
`next_back` return the first `n` entries of `behind`, then `None`. -/
theorem run_nextBack (iter : Iter SIZE) (untouched : iter.head = none) (n : Nat) :
    iter.run (List.replicate n .nextBack) = (List.range n).map fun k => iter.behind[k]? := by
  induction n generalizing iter with
  | zero => rfl
  | succ n inductionHypothesis =>
    rw [List.replicate_succ, run, step, nextBack_eq iter untouched]
    dsimp only
    rw [inductionHypothesis _ (by exact untouched), behind_nextBack, List.range_succ_eq_map,
      List.map_cons, List.map_map, List.head?_eq_getElem?]
    simp [Function.comp_def]

end Iter

/-- Consumed from one end only, `(&mask).into_iter()` returns the set indices of
`mask` once each, in increasing order from the front and in decreasing order from
the back, and then `None` on every later call. -/
theorem ofMask_run_oneEnd {SIZE : Nat} (mask : CpuMask SIZE) (n : Nat) :
    (Iter.ofMask mask).run (List.replicate n .next) =
        (List.range n).map (fun k => ((List.range SIZE).filter mask.get)[k]?) ∧
      (Iter.ofMask mask).run (List.replicate n .nextBack) =
        (List.range n).map (fun k => ((List.range SIZE).reverse.filter mask.get)[k]?) := by
  have everySet : (Iter.ofMask mask).behind = (List.range SIZE).reverse.filter mask.get :=
    List.filter_congr fun i member => by
      have := List.mem_range.mp (List.mem_reverse.mp member)
      simp [Iter.ofMask, show i < SIZE + 1 by omega]
  exact ⟨Iter.run_next _ rfl n, everySet ▸ Iter.run_nextBack _ rfl n⟩

/-- The mask of the `Iter` documentation: `CpuMask::<10>::new()` with bits 3, 5
and 8 set. -/
def docMask : CpuMask 10 :=
  ((CpuMask.new.set 3 true).set 5 true).set 8 true

example : (Iter.ofMask docMask).run (List.replicate 4 .next) = [some 3, some 5, some 8, none] := by
  decide

/-- On a mask with a single set index, `next` and `next_back` both return that
index, in either order: the front cursor stops only past the back cursor
(`tail < index`), and the back cursor only past the front one (`head > index`). -/
theorem iter_meet_returnsTwice {SIZE : Nat} (mask : CpuMask SIZE) (index : Nat)
    (single : ∀ j, mask.get j = decide (j = index)) (inRange : index < SIZE) :
    (Iter.ofMask mask).run [.nextBack, .next] = [some index, some index] ∧
      (Iter.ofMask mask).run [.next, .nextBack] = [some index, some index] := by
  have first : mask.firstIndex = some index :=
    CpuMask.firstIndex_eq_some_iff.mpr ⟨by simp [single], fun j below => by simp [single]; omega⟩
  have last : mask.lastIndex = some index :=
    CpuMask.lastIndex_eq_some_iff.mpr ⟨by simp [single], fun j above => by simp [single]; omega⟩
  constructor
  · simp [Iter.run, Iter.step, Iter.ofMask, Iter.next, Iter.nextBack, first, last, inRange,
      Nat.not_le_of_lt (Nat.lt_succ_of_lt inRange), Nat.not_lt_of_le (Nat.le_refl index)]
  · simp [Iter.run, Iter.step, Iter.ofMask, Iter.next, Iter.nextBack, first, last, inRange,
      Nat.not_lt_of_le (Nat.le_of_lt (Nat.lt_succ_of_lt inRange))]

/-- The mask `{3}` of ten CPUs. -/
def maskThree : CpuMask 10 :=
  ⟨fun j => decide (j = 3), fun j high => by simp; omega⟩

theorem iter_meet_returnsTwice_three :
    (∀ j, maskThree.get j = decide (j = 3)) ∧ 3 < 10 ∧
      (Iter.ofMask maskThree).run [.nextBack, .next] = [some 3, some 3] ∧
        (Iter.ofMask maskThree).run [.next, .nextBack] = [some 3, some 3] :=
  ⟨fun _ => rfl, by decide, iter_meet_returnsTwice maskThree 3 (fun _ => rfl) (by decide)⟩

end ThCore

import ThCore.CpuMask

/-!
# The iterator of `CpuMask` under every interleaving

`Iter::next` and `Iter::next_back` each search the mask from their own cursor and
then check the other cursor (`next_eq_search`, `nextBack_eq_search`).  From that,
one inversion lemma per call says everything a call can do (`next_cases`,
`nextBack_cases`): return the index its search found, or return `None` with no
set index left between the cursors and finish the iterator.

A trace is the list of calls, each with what it returned.  `Inv` ties a trace to
the iterator state after it; every call keeps it (`Inv.step`), so every run does
(`Inv.run`).  `ofMask_run_interleaved` is the result: under every interleaving
the front returns increasing set indices, the back decreasing ones, the front
never passes the back, `None` is final, and it comes only once every set index has
been returned.  The one thing the strict checks `tail < index` and
`head > index` let through is the meeting of the two cursors on one index, which
both ends then return.
-/

namespace ThCore.Iter

variable {SIZE : Nat}

/-- An index neither cursor has passed: set, after `head` and before `tail`. -/
def pending (iter : Iter SIZE) (i : Nat) : Bool :=
  after iter.data iter.head i && before iter.data iter.tail i

/-- Both ends are done: the head cursor is past the mask, or the tail cursor is
gone. -/
def finished (iter : Iter SIZE) : Bool :=
  iter.head.any (fun h => decide (SIZE ≤ h)) || iter.tail.isNone

theorem get_of_after {mask : CpuMask SIZE} {head : Option Nat} {i : Nat}
    (selected : after mask head i = true) : mask.get i = true := by
  simp only [after, Bool.and_eq_true] at selected
  exact selected.2

theorem get_of_before {mask : CpuMask SIZE} {tail : Option Nat} {i : Nat}
    (selected : before mask tail i = true) : mask.get i = true := by
  simp only [before, Bool.and_eq_true] at selected
  exact selected.2

/-- `next` searches the set indices after the head cursor, then checks the tail
cursor. -/
theorem next_eq_search (iter : Iter SIZE) :
    iter.next =
      match (List.range SIZE).find? (after iter.data iter.head), iter.tail with
      | some index, some t =>
        if t < index then ({ iter with head := some (SIZE + 1), tail := none }, none)
        else ({ iter with head := some index }, some index)
      | some _, none => ({ iter with head := some (SIZE + 1) }, none)
      | none, _ => ({ iter with head := some (SIZE + 1) }, none) := by
  obtain ⟨head, tail, data⟩ := iter
  rcases head with _ | h
  · simp only [next, CpuMask.firstIndex, after_none]
    cases (List.range SIZE).find? data.get <;> cases tail <;> rfl
  · by_cases high : h ≥ SIZE
    · have exhausted : (List.range SIZE).find? (after data (some h)) = none :=
        List.find?_eq_none.mpr fun i member => by
          have := List.mem_range.mp member
          simp only [after_some, Bool.and_eq_true, decide_eq_true_eq, not_and]
          omega
      simp only [next, if_pos high, exhausted]
    · simp only [next, if_neg high, CpuMask.nextIndex, after_some]
      cases (List.range SIZE).find? (fun i => decide (h < i) && data.get i) <;> cases tail <;> rfl

/-- `next_back` searches the set indices before the tail cursor, then checks the
head cursor. -/
theorem nextBack_eq_search (iter : Iter SIZE) :
    iter.nextBack =
      match (List.range SIZE).reverse.find? (before iter.data iter.tail), iter.head with
      | some index, some h =>
        if h > index then ({ iter with head := some (SIZE + 1), tail := none }, none)
        else ({ iter with tail := some index }, some index)
      | some index, none => ({ iter with tail := some index }, some index)
      | none, _ => ({ iter with tail := none }, none) := by
  obtain ⟨head, tail, data⟩ := iter
  rcases tail with _ | t
  · have exhausted : (List.range SIZE).reverse.find? (before data none) = none :=
      List.find?_eq_none.mpr fun _ _ => by simp
    simp only [nextBack, exhausted]
  · by_cases high : t ≥ SIZE
    · have everySet : (List.range SIZE).reverse.find? (before data (some t)) =
          (List.range SIZE).reverse.find? data.get := by
        rw [← List.filter_head?, ← List.filter_head?, List.filter_congr fun i member => ?_]
        have := List.mem_range.mp (List.mem_reverse.mp member)
        simp [show i < t by omega]
      simp only [nextBack, if_pos high, CpuMask.lastIndex, everySet]
      cases (List.range SIZE).reverse.find? data.get <;> cases head <;> rfl
    · simp only [nextBack, if_neg high, CpuMask.prevIndex, before_some]
      cases (List.range SIZE).reverse.find? (fun i => decide (i < t) && data.get i) <;>
        cases head <;> rfl

/-! ## What one call can do -/

/-- `next` either returns the first set index after the head cursor, which lies at
or below the tail cursor, or returns `None`, with no index left between the
cursors, and finishes the iterator. -/
theorem next_cases (iter : Iter SIZE) :
    (∃ index, iter.next = ({ iter with head := some index }, some index) ∧
        (List.range SIZE).find? (after iter.data iter.head) = some index ∧
        iter.tail.any (fun t => decide (index ≤ t))) ∨
      ((iter.next).2 = none ∧ (iter.next).1.head = some (SIZE + 1) ∧
        (iter.next).1.data = iter.data ∧
        ((iter.next).1.tail = iter.tail ∨ (iter.next).1.tail = none) ∧
        ∀ i, iter.pending i = false) := by
  rw [next_eq_search]
  cases found : (List.range SIZE).find? (after iter.data iter.head) with
  | none =>
    refine .inr ⟨rfl, rfl, rfl, .inl rfl, fun i => ?_⟩
    cases selected : after iter.data iter.head i
    · simp [pending, selected]
    · have inRange := CpuMask.lt_of_get (get_of_after selected)
      exact absurd selected (List.find?_eq_none.mp found i (List.mem_range.mpr inRange))
  | some index =>
    obtain ⟨-, -, least⟩ := List.find?_range_eq_some.mp found
    cases tail : iter.tail with
    | none => exact .inr ⟨rfl, rfl, rfl, .inr rfl, fun i => by simp [pending, tail]⟩
    | some t =>
      by_cases beyond : t < index
      · refine .inr ⟨by simp [beyond], by simp [beyond], by simp [beyond], .inr (by simp [beyond]),
          fun i => ?_⟩
        cases selected : after iter.data iter.head i
        · simp [pending, selected]
        · have early : ¬i < index := fun below => by simpa [selected] using least i below
          simp only [pending, selected, tail, before_some, Bool.true_and, Bool.and_eq_false_iff,
            decide_eq_false_iff_not]
          omega
      · exact .inl ⟨index, by simp [beyond], rfl, by simpa using beyond⟩

/-- `next_back` either returns the last set index before the tail cursor, which
lies at or above the head cursor, or returns `None`, with no index left between
the cursors, and drops the tail cursor. -/
theorem nextBack_cases (iter : Iter SIZE) :
    (∃ index, iter.nextBack = ({ iter with tail := some index }, some index) ∧
        (List.range SIZE).reverse.find? (before iter.data iter.tail) = some index ∧
        iter.head.all (fun h => decide (h ≤ index))) ∨
      ((iter.nextBack).2 = none ∧ (iter.nextBack).1.tail = none ∧
        (iter.nextBack).1.data = iter.data ∧
        ((iter.nextBack).1.head = iter.head ∨ (iter.nextBack).1.head = some (SIZE + 1)) ∧
        ∀ i, iter.pending i = false) := by
  rw [nextBack_eq_search]
  cases found : (List.range SIZE).reverse.find? (before iter.data iter.tail) with
  | none =>
    refine .inr ⟨rfl, rfl, rfl, .inl rfl, fun i => ?_⟩
    cases selected : before iter.data iter.tail i
    · simp [pending, selected]
    · have inRange := CpuMask.lt_of_get (get_of_before selected)
      exact absurd selected (List.find?_eq_none.mp found i
        (List.mem_reverse.mpr (List.mem_range.mpr inRange)))
  | some index =>
    obtain ⟨-, -, greatest⟩ := find?_range_reverse_eq_some_iff.mp found
    cases head : iter.head with
    | none => exact .inl ⟨index, rfl, rfl, rfl⟩
    | some h =>
      by_cases beyond : h > index
      · refine .inr ⟨by simp [beyond], by simp [beyond], by simp [beyond], .inr (by simp [beyond]),
          fun i => ?_⟩
        cases selected : before iter.data iter.tail i
        · simp [pending, selected]
        · have inRange := CpuMask.lt_of_get (get_of_before selected)
          have late : ¬index < i := fun above => by
            simpa [selected] using greatest i above inRange
          simp only [pending, selected, head, after_some, Bool.and_true, Bool.and_eq_false_iff,
            decide_eq_false_iff_not]
          omega
      · exact .inl ⟨index, by simp [beyond], rfl, by simpa using beyond⟩

/-! ## Traces -/

/-- The index an entry of a trace records, when the entry is a call of `call` that
returned one. -/
def returnedBy (call : Call) (entry : Call × Option Nat) : Option Nat :=
  if entry.1 = call then entry.2 else none

@[simp] theorem returnedBy_self (call : Call) (result : Option Nat) :
    returnedBy call (call, result) = result := by
  simp [returnedBy]

@[simp] theorem returnedBy_none (call other : Call) : returnedBy call (other, none) = none := by
  simp [returnedBy]

@[simp] theorem returnedBy_next_nextBack (result : Option Nat) :
    returnedBy .next (.nextBack, result) = none := by
  simp [returnedBy]

@[simp] theorem returnedBy_nextBack_next (result : Option Nat) :
    returnedBy .nextBack (.next, result) = none := by
  simp [returnedBy]

/-- An index among those returned by `call` comes from an entry of the trace. -/
theorem mem_of_mem_returnedBy {call : Call} {trace : List (Call × Option Nat)} {a : Nat}
    (member : a ∈ trace.filterMap (returnedBy call)) : (call, some a) ∈ trace := by
  obtain ⟨⟨call', result⟩, entry, picked⟩ := List.mem_filterMap.mp member
  by_cases same : call' = call
  · subst same
    rw [returnedBy_self] at picked
    rwa [picked] at entry
  · simp [returnedBy, same] at picked

/-- What a trace of calls on the iterator of `mask`, each call with what it
returned, guarantees: every index returned is set; the front returns increasing
indices, the back decreasing ones, and no front index lies above a back one; once
a call returns `None`, so does every later call; and a `None` comes only after
every set index was returned. -/
structure TraceOk (mask : CpuMask SIZE) (trace : List (Call × Option Nat)) : Prop where
  returnsSet : ∀ call i, (call, some i) ∈ trace → mask.get i = true
  frontIncreasing : (trace.filterMap (returnedBy .next)).Pairwise (· < ·)
  backDecreasing : (trace.filterMap (returnedBy .nextBack)).Pairwise (· > ·)
  frontBelowBack : ∀ a ∈ trace.filterMap (returnedBy .next),
    ∀ b ∈ trace.filterMap (returnedBy .nextBack), a ≤ b
  noneIsFinal : trace.Pairwise fun earlier later => earlier.2 = none → later.2 = none
  noneAfterAll : (∃ call, (call, none) ∈ trace) →
    ∀ i, mask.get i = true → ∃ call, (call, some i) ∈ trace

/-- `TraceOk`, with what the iterator after the trace keeps of it: the head cursor
lies at or above every front index and the tail cursor at or below every back
index, a `None` leaves the iterator finished, and every set index not yet
returned is still between the cursors. -/
structure Inv (mask : CpuMask SIZE) (iter : Iter SIZE) (trace : List (Call × Option Nat))
    extends TraceOk mask trace : Prop where
  data : iter.data = mask
  frontBound : ∀ a ∈ trace.filterMap (returnedBy .next), ∃ h, iter.head = some h ∧ a ≤ h
  backBound : ∀ b ∈ trace.filterMap (returnedBy .nextBack), ∀ t, iter.tail = some t → t ≤ b
  finishedAfterNone : (∃ call, (call, none) ∈ trace) → iter.finished = true
  covered : ∀ i, mask.get i = true → (∃ call, (call, some i) ∈ trace) ∨ iter.pending i = true

theorem Inv.start (mask : CpuMask SIZE) : Inv mask (ofMask mask) [] where
  returnsSet := by simp
  frontIncreasing := List.Pairwise.nil
  backDecreasing := List.Pairwise.nil
  frontBelowBack := by simp
  noneIsFinal := List.Pairwise.nil
  noneAfterAll := by simp
  data := rfl
  frontBound := by simp
  backBound := by simp
  finishedAfterNone := by simp
  covered i set := .inr (by simp [pending, ofMask, set, Nat.lt_succ_of_lt (CpuMask.lt_of_get set)])

section Step

variable {mask : CpuMask SIZE} {iter : Iter SIZE} {trace : List (Call × Option Nat)}

/-- A call that returns `None` keeps the invariant when it leaves no index between
the cursors and finishes the iterator. -/
theorem Inv.returnNone (inv : Inv mask iter trace) (call : Call) {iter' : Iter SIZE}
    (data : iter'.data = iter.data) (head : iter'.head = iter.head ∨ iter'.head = some (SIZE + 1))
    (tail : iter'.tail = iter.tail ∨ iter'.tail = none) (done : iter'.finished = true)
    (empty : ∀ i, iter.pending i = false) :
    Inv mask iter' (trace ++ [(call, none)]) := by
  have returned : ∀ i, mask.get i = true → ∃ call, (call, some i) ∈ trace := fun i set =>
    (inv.covered i set).resolve_right (by rw [empty]; decide)
  have same : ∀ other : Call, (trace ++ [(call, none)]).filterMap (returnedBy other) =
      trace.filterMap (returnedBy other) := by simp
  refine ⟨⟨fun call' i member => ?_, by rw [same]; exact inv.frontIncreasing,
    by rw [same]; exact inv.backDecreasing, by rw [same, same]; exact inv.frontBelowBack,
    List.pairwise_append.mpr ⟨inv.noneIsFinal, List.pairwise_singleton _ _,
      fun _ _ _ later _ => by rw [List.mem_singleton.mp later]⟩,
    fun _ i set => (returned i set).imp fun _ member => List.mem_append_left _ member⟩,
    data.trans inv.data, ?_, ?_, fun _ => done,
    fun i set => .inl ((returned i set).imp fun _ member => List.mem_append_left _ member)⟩
  · rcases List.mem_append.mp member with old | new
    · exact inv.returnsSet call' i old
    · simp at new
  · rw [same]
    intro a member
    rcases head with same | past
    · rw [same]
      exact inv.frontBound a member
    · have set := inv.returnsSet _ a (mem_of_mem_returnedBy member)
      exact ⟨SIZE + 1, past, Nat.le_succ_of_le (Nat.le_of_lt (CpuMask.lt_of_get set))⟩
  · rw [same]
    intro b member t tail'
    rcases tail with same | gone
    · exact inv.backBound b member t (same ▸ tail')
    · rw [gone] at tail'
      cases tail'

/-- While the head cursor lies at or below an index in range and the tail cursor
is set, the iterator is not finished, so no call has returned `None`. -/
theorem Inv.noNone (inv : Inv mask iter trace) {index t : Nat} (inRange : index < SIZE)
    (headBelow : ∀ h, iter.head = some h → h ≤ index) (tail : iter.tail = some t) :
    ∀ call, (call, none) ∉ trace := fun call member => by
  have done := inv.finishedAfterNone ⟨call, member⟩
  cases head : iter.head with
  | none => simp [finished, head, tail] at done
  | some h =>
    have := headBelow h head
    simp only [finished, head, tail, Option.any_some, Option.isNone_some, Bool.or_false,
      decide_eq_true_eq] at done
    omega

/-- Appending a call that returned a set index to a trace with no `None` keeps
every result set and `None` final, and still no call has returned `None`. -/
theorem TraceOk.appendSome (ok : TraceOk mask trace) (noNone : ∀ call, (call, none) ∉ trace)
    {index : Nat} (set : mask.get index = true) (call : Call) :
    (∀ call' i, (call', some i) ∈ trace ++ [(call, some index)] → mask.get i = true) ∧
      (trace ++ [(call, some index)]).Pairwise
        (fun earlier later => earlier.2 = none → later.2 = none) ∧
      ∀ call', (call', none) ∉ trace ++ [(call, some index)] := by
  refine ⟨fun call' i member => ?_, List.pairwise_append.mpr ⟨ok.noneIsFinal,
    List.pairwise_singleton _ _, fun p member _ _ returnedNone => absurd ?_ (noNone p.1)⟩,
    fun call' member => ?_⟩
  · rcases List.mem_append.mp member with old | new
    · exact ok.returnsSet call' i old
    · simp only [List.mem_singleton, Prod.mk.injEq, Option.some.injEq] at new
      rwa [new.2]
  · rwa [← returnedNone]
  · rcases List.mem_append.mp member with old | new
    · exact noNone call' old
    · simp at new

/-- A `next` that returns the first set index after the head cursor, at or below
the tail cursor, keeps the invariant. -/
theorem Inv.front (inv : Inv mask iter trace) {index : Nat}
    (found : (List.range SIZE).find? (after iter.data iter.head) = some index)
    (belowTail : iter.tail.any (fun t => decide (index ≤ t)) = true) :
    Inv mask { iter with head := some index } (trace ++ [(.next, some index)]) := by
  obtain ⟨selected, inRange, least⟩ := List.find?_range_eq_some.mp found
  have headBelow : ∀ h, iter.head = some h → h < index := fun h head => by
    simp only [after, head, Option.all_some, Bool.and_eq_true, decide_eq_true_eq] at selected
    exact selected.1
  obtain ⟨t, tail, tailAbove⟩ : ∃ t, iter.tail = some t ∧ index ≤ t := by
    cases tail : iter.tail with
    | none => simp [tail] at belowTail
    | some t => exact ⟨t, rfl, by simpa [tail] using belowTail⟩
  have noNone := inv.noNone (List.mem_range.mp inRange)
    (fun h head => Nat.le_of_lt (headBelow h head)) tail
  obtain ⟨returnsSet, noneIsFinal, stillNoNone⟩ :=
    inv.appendSome noNone (inv.data ▸ get_of_after selected) .next
  have frontsBelow : ∀ a ∈ trace.filterMap (returnedBy .next), a < index := fun a member => by
    obtain ⟨h, head, le⟩ := inv.frontBound a member
    exact le.trans_lt (headBelow h head)
  have fronts : (trace ++ [(Call.next, some index)]).filterMap (returnedBy .next) =
      trace.filterMap (returnedBy .next) ++ [index] := by simp
  have backs : (trace ++ [(Call.next, some index)]).filterMap (returnedBy .nextBack) =
      trace.filterMap (returnedBy .nextBack) := by simp
  refine ⟨⟨returnsSet, ?frontIncreasing, by rw [backs]; exact inv.backDecreasing,
    ?frontBelowBack, noneIsFinal, fun ⟨call, member⟩ => absurd member (stillNoNone call)⟩,
    inv.data, ?frontBound, by rw [backs]; exact inv.backBound,
    fun ⟨call, member⟩ => absurd member (stillNoNone call), ?covered⟩
  case frontIncreasing =>
    rw [fronts]
    exact List.pairwise_append.mpr ⟨inv.frontIncreasing, List.pairwise_singleton _ _,
      fun a member b new => List.mem_singleton.mp new ▸ frontsBelow a member⟩
  case frontBelowBack =>
    rw [fronts, backs]
    intro a member b back
    rcases List.mem_append.mp member with old | new
    · exact inv.frontBelowBack a old b back
    · exact List.mem_singleton.mp new ▸ tailAbove.trans (inv.backBound b back t tail)
  case frontBound =>
    rw [fronts]
    intro a member
    rcases List.mem_append.mp member with old | new
    · exact ⟨index, rfl, Nat.le_of_lt (frontsBelow a old)⟩
    · exact ⟨index, rfl, Nat.le_of_eq (List.mem_singleton.mp new)⟩
  case covered =>
    intro i setI
    rcases inv.covered i setI with ⟨call, member⟩ | waiting
    · exact .inl ⟨call, List.mem_append_left _ member⟩
    · simp only [pending, Bool.and_eq_true] at waiting
      rcases Nat.lt_trichotomy i index with below | same | above
      · simpa [waiting.1] using least i below
      · exact .inl ⟨.next, List.mem_append_right _ (same ▸ List.mem_singleton_self _)⟩
      · refine .inr ?_
        simp only [pending, Bool.and_eq_true]
        exact ⟨by simp [above, get_of_after waiting.1], waiting.2⟩

/-- A `next_back` that returns the last set index before the tail cursor, at or
above the head cursor, keeps the invariant. -/
theorem Inv.back (inv : Inv mask iter trace) {index : Nat}
    (found : (List.range SIZE).reverse.find? (before iter.data iter.tail) = some index)
    (aboveHead : iter.head.all (fun h => decide (h ≤ index)) = true) :
    Inv mask { iter with tail := some index } (trace ++ [(.nextBack, some index)]) := by
  obtain ⟨inRange, selected, greatest⟩ := find?_range_reverse_eq_some_iff.mp found
  obtain ⟨t, tail, tailAbove⟩ : ∃ t, iter.tail = some t ∧ index < t := by
    cases tail : iter.tail with
    | none => simp [before, tail] at selected
    | some t =>
      simp only [before, tail, Option.any_some, Bool.and_eq_true, decide_eq_true_eq] at selected
      exact ⟨t, rfl, selected.1⟩
  have headBelow : ∀ h, iter.head = some h → h ≤ index := fun h head => by
    simpa [head] using aboveHead
  obtain ⟨returnsSet, noneIsFinal, stillNoNone⟩ :=
    inv.appendSome (inv.noNone inRange headBelow tail) (inv.data ▸ get_of_before selected)
      .nextBack
  have backsAbove : ∀ b ∈ trace.filterMap (returnedBy .nextBack), index < b := fun b member =>
    tailAbove.trans_le (inv.backBound b member t tail)
  have fronts : (trace ++ [(Call.nextBack, some index)]).filterMap (returnedBy .next) =
      trace.filterMap (returnedBy .next) := by simp
  have backs : (trace ++ [(Call.nextBack, some index)]).filterMap (returnedBy .nextBack) =
      trace.filterMap (returnedBy .nextBack) ++ [index] := by simp
  refine ⟨⟨returnsSet, by rw [fronts]; exact inv.frontIncreasing, ?backDecreasing,
    ?frontBelowBack, noneIsFinal, fun ⟨call, member⟩ => absurd member (stillNoNone call)⟩,
    inv.data, by rw [fronts]; exact inv.frontBound, ?backBound,
    fun ⟨call, member⟩ => absurd member (stillNoNone call), ?covered⟩
  case backDecreasing =>
    rw [backs]
    exact List.pairwise_append.mpr ⟨inv.backDecreasing, List.pairwise_singleton _ _,
      fun b member a new => List.mem_singleton.mp new ▸ backsAbove b member⟩
  case frontBelowBack =>
    rw [fronts, backs]
    intro a front b member
    rcases List.mem_append.mp member with old | new
    · exact inv.frontBelowBack a front b old
    · obtain ⟨h, head, le⟩ := inv.frontBound a front
      exact List.mem_singleton.mp new ▸ le.trans (headBelow h head)
  case backBound =>
    rw [backs]
    intro b member t' tail'
    simp only [Option.some.injEq] at tail'
    subst tail'
    rcases List.mem_append.mp member with old | new
    · exact Nat.le_of_lt (backsAbove b old)
    · exact Nat.le_of_eq (List.mem_singleton.mp new).symm
  case covered =>
    intro i setI
    rcases inv.covered i setI with ⟨call, member⟩ | waiting
    · exact .inl ⟨call, List.mem_append_left _ member⟩
    · simp only [pending, Bool.and_eq_true] at waiting
      rcases Nat.lt_trichotomy i index with below | same | above
      · refine .inr ?_
        simp only [pending, Bool.and_eq_true]
        exact ⟨waiting.1, by simp [below, get_of_before waiting.2]⟩
      · exact .inl ⟨.nextBack, List.mem_append_right _ (same ▸ List.mem_singleton_self _)⟩
      · have inside := CpuMask.lt_of_get (get_of_before waiting.2)
        simpa [waiting.2] using greatest i above inside

/-- The step lemma: every call keeps the invariant. -/
theorem Inv.step (inv : Inv mask iter trace) (call : Call) :
    Inv mask (iter.step call).1 (trace ++ [(call, (iter.step call).2)]) := by
  cases call with
  | next =>
    rcases next_cases iter with ⟨index, moved, found, belowTail⟩ |
      ⟨returnedNone, head, data, tail, empty⟩
    · rw [Iter.step, moved]
      exact inv.front found belowTail
    · rw [Iter.step, returnedNone]
      exact inv.returnNone .next data (.inr head) tail (by simp [finished, head]) empty
  | nextBack =>
    rcases nextBack_cases iter with ⟨index, moved, found, aboveHead⟩ |
      ⟨returnedNone, tail, data, head, empty⟩
    · rw [Iter.step, moved]
      exact inv.back found aboveHead
    · rw [Iter.step, returnedNone]
      exact inv.returnNone .nextBack data head (.inr tail) (by simp [finished, tail]) empty

/-- The run lemma: along every sequence of calls the trace stays `TraceOk`. -/
theorem Inv.run : ∀ {iter : Iter SIZE} {trace : List (Call × Option Nat)},
    Inv mask iter trace → ∀ calls : List Call, TraceOk mask (trace ++ calls.zip (iter.run calls))
  | _, _, inv, [] => by simpa [Iter.run] using inv.toTraceOk
  | _, _, inv, call :: calls => by
    rw [Iter.run, List.zip_cons_cons, List.append_cons]
    exact (inv.step call).run calls

end Step

end ThCore.Iter

namespace ThCore

/-- For every mask and every interleaving of `next` and `next_back` calls on
`(&mask).into_iter()`, each call paired with what it returned: every index
returned is set; the front returns strictly increasing indices and the back
strictly decreasing ones, and no front index lies above a back one, so each end
returns an index at most once and the two ends share at most the index where
they meet; once a call returns `None`, every later call does too; and a `None`
comes only after every set index has been returned. -/
theorem ofMask_run_interleaved {SIZE : Nat} (mask : CpuMask SIZE) (calls : List Iter.Call) :
    Iter.TraceOk mask (calls.zip ((Iter.ofMask mask).run calls)) := by
  simpa using (Iter.Inv.start mask).run calls

end ThCore

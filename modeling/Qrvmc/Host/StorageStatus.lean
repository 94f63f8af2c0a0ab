import Qrvmc.Types.Messages

/-! The storage status of one write. The source walks the clause tree of its
specification; the storage documentation also gives a table indexed by four
checks. Both are stated here, and the tree is shown to compute the table. -/
namespace Qrvmc

/-- The assertions inside the clause tree, the last in its default branch. -/
inductive StatusAssertion where
  | valueNonzero
  | currentNonzero
  | otherCombinationsImpossible
  deriving DecidableEq

/-- The status a write returns, and the assertions evaluated on the way to it. -/
structure StatusRun where
  status : StorageStatus
  asserts : List (StatusAssertion × Bool) := []

def noClauses : Nat := 0
def removeClearsSchedule : Nat := 1 <<< 0
def addClearsSchedule : Nat := 1 <<< 1
def restoredBySet : Nat := 1 <<< 2
def restoredByReset : Nat := 1 <<< 3

/-- Clauses 3.2.1 and 3.2.2, the flags they raise and the assertions they make. -/
def triggeredClauses (original current value : Bytes32) : Nat × List (StatusAssertion × Bool) :=
  let (clauses, asserts) :=
    if !original.isZero then
      let (clauses, asserts) :=
        if current.isZero then
          (noClauses ||| removeClearsSchedule, [(.valueNonzero, !value.isZero)])
        else (noClauses, [])
      if value.isZero then
        (clauses ||| addClearsSchedule, asserts ++ [(.currentNonzero, !current.isZero)])
      else (clauses, asserts)
    else (noClauses, [])
  if original.beq value then
    if original.isZero then (clauses ||| restoredBySet, asserts)
    else (clauses ||| restoredByReset, asserts)
  else (clauses, asserts)

/-- The switch over the combinations of clauses. -/
def statusOfClauses (clauses : Nat) (asserts : List (StatusAssertion × Bool)) : StatusRun :=
  if clauses = removeClearsSchedule then { status := .deletedAdded, asserts }
  else if clauses = addClearsSchedule then { status := .modifiedDeleted, asserts }
  else if clauses = removeClearsSchedule ||| restoredByReset then
    { status := .deletedRestored, asserts }
  else if clauses = restoredBySet then { status := .addedDeleted, asserts }
  else if clauses = restoredByReset then { status := .modifiedRestored, asserts }
  else if clauses = noClauses then { status := .assigned, asserts }
  else
    { status := .assigned
      asserts := asserts ++ [(.otherCombinationsImpossible, false)] }

/-- The lambda of `MockedHost::set_storage`. -/
def storageStatus (original current value : Bytes32) : StatusRun :=
  if current.beq value then { status := .assigned }
  else if original.beq current then
    if original.isZero then { status := .added }
    else if value.isZero then { status := .deleted }
    else { status := .modified }
  else
    let (clauses, asserts) := triggeredClauses original current value
    statusOfClauses clauses asserts

/-- The table of the storage documentation, in the order of its checksums. Four
combinations of the checks are marked there as impossible. -/
def statusByChecks (dirty restored currentNonzero valueNonzero : Bool) : Option StorageStatus :=
  match dirty, restored, currentNonzero, valueNonzero with
  | false, false, false, false => none
  | false, false, false, true => some .added
  | false, false, true, false => some .deleted
  | false, false, true, true => some .modified
  | false, true, false, false => some .assigned
  | false, true, false, true => none
  | false, true, true, false => none
  | false, true, true, true => some .assigned
  | true, false, false, false => some .assigned
  | true, false, false, true => some .deletedAdded
  | true, false, true, false => some .modifiedDeleted
  | true, false, true, true => some .assigned
  | true, true, false, false => none
  | true, true, false, true => some .deletedRestored
  | true, true, true, false => some .addedDeleted
  | true, true, true, true => some .modifiedRestored

theorem Bytes32.beq_eq_decide (a b : Bytes32) : a.beq b = decide (a = b) :=
  Bool.eq_iff_iff.mpr (by rw [Bytes32.beq_iff, decide_eq_true_iff])

theorem Bytes32.isZero_eq_decide (a : Bytes32) : a.isZero = decide (a = 0) := a.beq_eq_decide 0

/-- The flags and assertions of the two clauses, with the tests resolved. The
caller is in the branch of a write that changes the slot. -/
theorem triggeredClauses_eq (original current value : Bytes32) (hChange : current ≠ value) :
    triggeredClauses original current value =
      if original = 0 then if value = 0 then (restoredBySet, []) else (noClauses, [])
      else if current = 0 then
        if original = value then
          (removeClearsSchedule ||| restoredByReset, [(.valueNonzero, true)])
        else (removeClearsSchedule, [(.valueNonzero, true)])
      else if value = 0 then (addClearsSchedule, [(.currentNonzero, true)])
      else if original = value then (restoredByReset, [])
      else (noClauses, []) := by
  simp only [triggeredClauses, Bytes32.beq_eq_decide, Bytes32.isZero_eq_decide]
  by_cases hOriginal : original = 0
  · by_cases hValue : value = 0
    · simp [hOriginal, hValue, noClauses]
    · simp [hOriginal, hValue, Ne.symm hValue, noClauses]
  · by_cases hCurrent : current = 0
    · have hValue : value ≠ 0 := fun h => hChange (hCurrent.trans h.symm)
      by_cases hRestored : original = value
      · subst hRestored
        simp [hOriginal, hCurrent, noClauses]
      · simp [hOriginal, hCurrent, hValue, hRestored, noClauses]
    · by_cases hValue : value = 0
      · simp [hOriginal, hCurrent, hValue, noClauses]
      · by_cases hRestored : original = value
        · subst hRestored
          simp [hOriginal, hCurrent, noClauses]
        · simp [hOriginal, hCurrent, hValue, hRestored, noClauses]

/-- The whole lambda, with the flags resolved: which value is zero and whether
the original comes back decide the status of a write to a dirty slot. -/
theorem storageStatus_eq (original current value : Bytes32) :
    storageStatus original current value =
      if current = value then { status := .assigned }
      else if original = current then
        if original = 0 then { status := .added }
        else if value = 0 then { status := .deleted }
        else { status := .modified }
      else if original = 0 then
        if value = 0 then { status := .addedDeleted } else { status := .assigned }
      else if current = 0 then
        if original = value then
          { status := .deletedRestored, asserts := [(.valueNonzero, true)] }
        else { status := .deletedAdded, asserts := [(.valueNonzero, true)] }
      else if value = 0 then { status := .modifiedDeleted, asserts := [(.currentNonzero, true)] }
      else if original = value then { status := .modifiedRestored }
      else { status := .assigned } := by
  by_cases hNoop : current = value
  · simp only [storageStatus, Bytes32.beq_eq_decide, hNoop, decide_true, ↓reduceIte]
  · simp only [storageStatus, Bytes32.beq_eq_decide, Bytes32.isZero_eq_decide,
      decide_eq_true_eq, triggeredClauses_eq original current value hNoop, hNoop, ↓reduceIte]
    split_ifs <;> rfl

/-- The tree returns the entry of the table, whatever the three values are. -/
theorem storageStatus_table (original current value : Bytes32) :
    statusByChecks (original ≠ current) (original = value) (current ≠ 0) (value ≠ 0) =
      some (storageStatus original current value).status := by
  rw [storageStatus_eq]
  cases hClean : decide (original = current) <;> cases hRestored : decide (original = value) <;>
    cases hCurrent : decide (current = 0) <;> cases hValue : decide (value = 0) <;>
    grind [statusByChecks]

/-- Every assertion that is reached holds, and the default branch is not reached. -/
theorem storageStatus_asserts (original current value : Bytes32) :
    ∀ entry ∈ (storageStatus original current value).asserts,
      entry.2 = true ∧ entry.1 ≠ .otherCombinationsImpossible := by
  rw [storageStatus_eq]
  split_ifs <;> simp

end Qrvmc

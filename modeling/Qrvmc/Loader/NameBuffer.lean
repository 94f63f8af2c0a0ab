import Qrvmc.Loader.CreateFnName
import Qrvmc.Semantics.Path

/-! The buffer for the name of the create function while it is filled. The part of
`qrvmc_load` that does so is taken apart into its steps, with the pointers that it has. -/
namespace Qrvmc
open Memory Semantics

/-- The step that is to be done next. -/
inductive NameStage where
  | copyPrefix
  | findSeparator
  | skipLib
  | copyBaseName
  | trimExtensions
  | replaceDash
  | lookUp
  deriving DecidableEq

/-- The buffer, the pointer into the file name and the pointer that looks for dashes. -/
structure NameState where
  stage : NameStage
  prefixedName : Vector CChar (prefixSize + pathMaxLength)
  namePos : Nat := 0
  dashPos : Nat := 0

/-- One statement or one iteration of the loop. -/
def NameState.step (filename : CText) (state : NameState) : Exec NameState :=
  match state.stage with
  | .copyPrefix => do
      let (prefixedName, _) ←
        strcpySx state.prefixedName 0 (prefixSize + pathMaxLength) createFnPrefix
      return { state with stage := .findSeparator, prefixedName }
  | .findSeparator =>
      let namePos := match strrchr filename (chr '/') with
        | some sepPos => sepPos + 1
        | none => 0
      .ok { state with stage := .skipLib, namePos }
  | .skipLib => do
      if strncmp (← textFrom filename state.namePos) libPrefix libPrefix.length then
        return { state with stage := .copyBaseName, namePos := state.namePos + libPrefix.length }
      else return { state with stage := .copyBaseName }
  | .copyBaseName => do
      let (prefixedName, _) ← strcpySx state.prefixedName createFnPrefix.length pathMaxLength
        (← textFrom filename state.namePos)
      return { state with stage := .trimExtensions, prefixedName }
  | .trimExtensions => do
      let prefixedName ← cutExtension state.prefixedName
      return { state with stage := .replaceDash, prefixedName, dashPos := createFnPrefix.length }
  | .replaceDash => do
      match ← inBounds (strchr state.prefixedName state.dashPos (chr '-')) with
      | none => return { state with stage := .lookUp }
      | some dashPos =>
          let prefixedName ← inBounds (store state.prefixedName dashPos (chr '_'))
          return { state with prefixedName, dashPos := dashPos + 1 }
  | .lookUp => .ok state

/-- A step before the name is looked up. -/
def NameStep (filename : CText) (state : NameState) (stage : NameStage) (next : NameState) : Prop :=
  state.stage = stage ∧ stage ≠ .lookUp ∧ state.step filename = .ok next

/-- The buffer holds the prefix and a base name behind it. -/
structure Prefixed (block : List CChar) (base : CText) : Prop where
  head : block.take createFnPrefix.length = createFnPrefix.chars
  holds : Holds block createFnPrefix.length base
  short : base.length < pathMaxLength

/-- What holds of the buffer before each step. -/
def BufferAt (block : List CChar) (dashPos : Nat) : NameStage → Prop
  | .copyPrefix => True
  | .findSeparator | .skipLib | .copyBaseName => Holds block 0 createFnPrefix
  | .trimExtensions => ∃ base, Prefixed block base
  | .replaceDash => ∃ base, Prefixed block base ∧ createFnPrefix.length ≤ dashPos ∧
      dashPos ≤ createFnPrefix.length + base.length ∧
      chr '-' ∉ base.chars.take (dashPos - createFnPrefix.length)
  | .lookUp => ∃ base, Prefixed block base ∧ chr '-' ∉ base.chars

/-- The invariant of the steps. -/
structure NameInvariant (filename : CText) (state : NameState) : Prop where
  inside : state.namePos ≤ filename.length
  buffer : BufferAt state.prefixedName.toList state.dashPos state.stage

/-- How many steps are left at most. -/
def NameState.remaining (state : NameState) : Nat :=
  match state.stage with
  | .copyPrefix => pathMaxLength + 6
  | .findSeparator => pathMaxLength + 5
  | .skipLib => pathMaxLength + 4
  | .copyBaseName => pathMaxLength + 3
  | .trimExtensions => pathMaxLength + 2
  | .replaceDash => createFnPrefix.length + pathMaxLength - state.dashPos + 1
  | .lookUp => 0

/-- What a step from a state that is in order has to do. -/
def Advances (filename : CText) (state : NameState) : Prop :=
  ∃ next, state.step filename = .ok next ∧ NameInvariant filename next ∧
    next.remaining < state.remaining

theorem createFnPrefix_length : createFnPrefix.length = 13 := by decide

variable {filename : CText} {state : NameState}

theorem NameInvariant.copyPrefix (h : NameInvariant filename state)
    (hStage : state.stage = .copyPrefix) : Advances filename state := by
  obtain ⟨written, hWritten, hHolds, _⟩ := strcpySx_fits state.prefixedName 0
    (prefixSize + pathMaxLength) createFnPrefix (by omega) (by rw [createFnPrefix_length]; decide)
  refine ⟨{ state with stage := .findSeparator, prefixedName := written }, ?_,
    ⟨h.inside, hHolds⟩, ?_⟩
  · simp only [NameState.step, hStage, hWritten, Exec.ok_bind]
    rfl
  · simp only [NameState.remaining, hStage]
    omega

theorem NameInvariant.findSeparator (h : NameInvariant filename state)
    (hStage : state.stage = .findSeparator) : Advances filename state := by
  have hBuffer := h.buffer
  rw [hStage] at hBuffer
  cases hSep : strrchr filename (chr '/') with
  | none =>
      refine ⟨{ state with stage := .skipLib, namePos := 0 }, ?_, ⟨Nat.zero_le _, hBuffer⟩, ?_⟩
      · simp only [NameState.step, hStage, hSep]
      · simp only [NameState.remaining, hStage]
        omega
  | some sepPos =>
      refine ⟨{ state with stage := .skipLib, namePos := sepPos + 1 }, ?_,
        ⟨strrchr_lt hSep, hBuffer⟩, ?_⟩
      · simp only [NameState.step, hStage, hSep]
      · simp only [NameState.remaining, hStage]
        omega

theorem NameInvariant.skipLib (h : NameInvariant filename state)
    (hStage : state.stage = .skipLib) : Advances filename state := by
  have hBuffer := h.buffer
  rw [hStage] at hBuffer
  by_cases hLib : strncmp (filename.drop state.namePos) libPrefix libPrefix.length = true
  · have hLength := length_of_strncmp hLib
    have hDrop : (filename.drop state.namePos).length = filename.length - state.namePos :=
      List.length_drop ..
    have hInside : state.namePos + libPrefix.length ≤ filename.length := by
      have hBefore := h.inside
      omega
    refine ⟨{ state with stage := .copyBaseName, namePos := state.namePos + libPrefix.length }, ?_,
      ⟨hInside, hBuffer⟩, ?_⟩
    · simp only [NameState.step, hStage, textFrom_eq h.inside, Exec.ok_bind, if_pos hLib]
      rfl
    · simp only [NameState.remaining, hStage]
      omega
  · refine ⟨{ state with stage := .copyBaseName }, ?_, ⟨h.inside, hBuffer⟩, ?_⟩
    · simp only [NameState.step, hStage, textFrom_eq h.inside, Exec.ok_bind, if_neg hLib]
      rfl
    · simp only [NameState.remaining, hStage]
      omega

theorem NameInvariant.copyBaseName (h : NameInvariant filename state)
    (hStage : state.stage = .copyBaseName) : Advances filename state := by
  have hBuffer := h.buffer
  rw [hStage] at hBuffer
  obtain ⟨copied, failed, hCopied, hHolds, hFrame⟩ := @strcpySx_holds _
    state.prefixedName createFnPrefix.length pathMaxLength (filename.drop state.namePos)
    (by rw [createFnPrefix_length]; decide) (by decide)
  generalize hBase : (if (filename.drop state.namePos).length < pathMaxLength then
    filename.drop state.namePos else text "") = base at hHolds
  have hShort : base.length < pathMaxLength := by
    rw [← hBase]
    split
    · assumption
    · decide
  refine ⟨{ state with stage := .trimExtensions, prefixedName := copied }, ?_,
    ⟨h.inside, base, hFrame.trans (take_of_holds hBuffer), hHolds, hShort⟩, ?_⟩
  · simp only [NameState.step, hStage, textFrom_eq h.inside, Exec.ok_bind, hCopied]
    rfl
  · simp only [NameState.remaining, hStage]
    omega

theorem NameInvariant.trimExtensions (h : NameInvariant filename state)
    (hStage : state.stage = .trimExtensions) : Advances filename state := by
  have hBuffer := h.buffer
  rw [hStage] at hBuffer
  obtain ⟨base, hHead, hHolds, hShort⟩ := hBuffer
  obtain ⟨trimmed, hTrimmed, hTrunk, hTrunkHead⟩ :=
    cutExtension_holds (by decide : chr '.' ∉ createFnPrefix.chars) hHead hHolds
  have hTrunkShort : (base.before (chr '.')).length < pathMaxLength :=
    Nat.lt_of_le_of_lt (Text.length_before_le ..) hShort
  refine ⟨{ state with stage := .replaceDash, prefixedName := trimmed,
                       dashPos := createFnPrefix.length }, ?_, ⟨h.inside, base.before (chr '.'),
    ⟨hTrunkHead, hTrunk, hTrunkShort⟩, Nat.le_refl _, Nat.le_add_right .., ?_⟩, ?_⟩
  · simp only [NameState.step, hStage, hTrimmed, Exec.ok_bind]
    rfl
  · simp
  · simp only [NameState.remaining, hStage]
    omega

/-- Once the first dash behind an offset is replaced, none is left up to there. -/
theorem not_mem_take_set {base : CText} {offset found : Nat}
    (hClean : chr '-' ∉ base.chars.take offset)
    (hFound : offset + (base.drop offset).chars.idxOf (chr '-') = found)
    (hInside : found < base.length) :
    chr '-' ∉ (base.set found (by decide : chr '_' ≠ 0)).chars.take (found + 1) := by
  have hHead : (base.chars.take found ++ [chr '_']).length = found + 1 := by
    rw [List.length_append, List.length_take_of_le (Nat.le_of_lt hInside)]
    rfl
  have hBefore : chr '-' ∉ (base.drop offset).chars.take
      ((base.drop offset).chars.idxOf (chr '-')) := Text.not_mem_before (base.drop offset) (chr '-')
  rw [Text.set_chars _ _ hInside, List.take_left' hHead, ← hFound, List.take_add]
  simp only [List.mem_append, List.mem_singleton, not_or]
  exact ⟨⟨hClean, hBefore⟩, by decide⟩

/-- A dash behind the pointer is the first one, and it lies in the base name. -/
theorem NameInvariant.replaceDash (h : NameInvariant filename state)
    (hStage : state.stage = .replaceDash) : Advances filename state := by
  have hBuffer := h.buffer
  rw [hStage] at hBuffer
  obtain ⟨base, ⟨hHead, hHolds, hShort⟩, hLow, hHigh, hClean⟩ := hBuffer
  obtain ⟨offset, hOffset⟩ := Nat.exists_eq_add_of_le hLow
  have hTail : Holds state.prefixedName.toList state.dashPos (base.drop offset) := by
    rw [hOffset]
    exact hHolds.drop (by omega)
  rw [hOffset, Nat.add_sub_cancel_left] at hClean
  by_cases hDash : chr '-' ∈ (base.drop offset).chars
  · have hIndex : (base.drop offset).chars.idxOf (chr '-') < (base.drop offset).length :=
      List.idxOf_lt_length_of_mem hDash
    have hDropLength : (base.drop offset).length = base.length - offset := List.length_drop ..
    generalize hFound : offset + (base.drop offset).chars.idxOf (chr '-') = found
    have hInside : found < base.length := by omega
    have hPos : state.dashPos + (base.drop offset).chars.idxOf (chr '-') =
        createFnPrefix.length + found := by omega
    have hRoom : createFnPrefix.length + found < prefixSize + pathMaxLength := by
      have hEnd := hHolds.lt
      rw [Vector.length_toList] at hEnd
      omega
    have hStep : state.step filename = .ok { state with
        prefixedName := state.prefixedName.set (createFnPrefix.length + found) (chr '_')
        dashPos := createFnPrefix.length + found + 1 } := by
      simp only [NameState.step, hStage, hTail.strchr, hDash, ↓reduceIte, inBounds_some,
        Exec.ok_bind, hPos, store_eq hRoom]
      rfl
    refine ⟨_, hStep, ⟨h.inside, ?_⟩, ?_⟩
    · rw [hStage]
      refine ⟨base.set found (by decide : chr '_' ≠ 0), ⟨?_, ?_, ?_⟩, Nat.le_add_right_of_le
        (Nat.le_add_right ..), ?_, ?_⟩
      · rw [Vector.toList_set, List.take_set_of_le (Nat.le_add_right ..)]
        exact hHead
      · rw [Vector.toList_set]
        exact hHolds.set_inside hInside _
      · rwa [Text.length_set]
      · rw [Text.length_set]
        exact Nat.add_le_add_left hInside _
      · rw [Nat.add_assoc, Nat.add_sub_cancel_left]
        exact not_mem_take_set hClean hFound hInside
    · have hLess : createFnPrefix.length + pathMaxLength -
          (createFnPrefix.length + found + 1) < createFnPrefix.length + pathMaxLength -
            state.dashPos := by omega
      simp only [NameState.remaining, hStage]
      exact Nat.succ_lt_succ hLess
  · have hNone : chr '-' ∉ base.chars := by
      rw [← List.take_append_drop offset base.chars, List.mem_append]
      exact fun hMem => hMem.elim hClean hDash
    refine ⟨{ state with stage := .lookUp }, ?_,
      ⟨h.inside, base, ⟨hHead, hHolds, hShort⟩, hNone⟩, ?_⟩
    · simp only [NameState.step, hStage, hTail.strchr, hDash, ↓reduceIte, inBounds_some,
        Exec.ok_bind]
      rfl
    · simp only [NameState.remaining, hStage]
      omega

theorem NameInvariant.advances (h : NameInvariant filename state) (hStage : state.stage ≠ .lookUp) :
    Advances filename state := by
  cases hNext : state.stage with
  | copyPrefix => exact h.copyPrefix hNext
  | findSeparator => exact h.findSeparator hNext
  | skipLib => exact h.skipLib hNext
  | copyBaseName => exact h.copyBaseName hNext
  | trimExtensions => exact h.trimExtensions hNext
  | replaceDash => exact h.replaceDash hNext
  | lookUp => exact absurd hNext hStage

/-- There is one way to go on, and it keeps the invariant. -/
theorem NameInvariant.next (h : NameInvariant filename state) {stage : NameStage} {next : NameState}
    (hStep : NameStep filename state stage next) :
    NameInvariant filename next ∧ next.remaining < state.remaining := by
  obtain ⟨hStage, hMore, hRun⟩ := hStep
  obtain ⟨reached, hReached, hInvariant, hLess⟩ := h.advances (by rwa [hStage])
  obtain rfl : reached = next := Except.ok.inj (hReached.symm.trans hRun)
  exact ⟨hInvariant, hLess⟩

theorem Prefixed.whole {block : List CChar} {base : CText} (h : Prefixed block base) :
    Holds block 0 (createFnPrefix.append base) := holds_append h.head h.holds

/-- Once the prefix is there, the buffer holds a name that starts with it. -/
theorem NameInvariant.name (h : NameInvariant filename state) (hStage : state.stage ≠ .copyPrefix) :
    ∃ name, Holds state.prefixedName.toList 0 name ∧ createFnPrefix.chars <+: name.chars := by
  have hBuffer := h.buffer
  have hBase {base : CText} (hPrefixed : Prefixed state.prefixedName.toList base) :
      ∃ name, Holds state.prefixedName.toList 0 name ∧ createFnPrefix.chars <+: name.chars :=
    ⟨_, hPrefixed.whole, List.prefix_append _ _⟩
  cases hNext : state.stage with
  | copyPrefix => exact absurd hNext hStage
  | findSeparator | skipLib | copyBaseName =>
      rw [hNext] at hBuffer
      exact ⟨_, hBuffer, List.prefix_refl _⟩
  | trimExtensions =>
      rw [hNext] at hBuffer
      obtain ⟨base, hPrefixed⟩ := hBuffer
      exact hBase hPrefixed
  | replaceDash | lookUp =>
      rw [hNext] at hBuffer
      obtain ⟨base, hPrefixed, _⟩ := hBuffer
      exact hBase hPrefixed

/-- What the linker is asked for has no dash. -/
theorem NameInvariant.no_dash (h : NameInvariant filename state) (hStage : state.stage = .lookUp) :
    ∃ name, Holds state.prefixedName.toList 0 name ∧ chr '-' ∉ name.chars := by
  have hBuffer := h.buffer
  rw [hStage] at hBuffer
  obtain ⟨base, hPrefixed, hDash⟩ := hBuffer
  refine ⟨_, hPrefixed.whole, fun hMem => ?_⟩
  rcases List.mem_append.mp hMem with hHead | hBase
  · exact absurd hHead (by decide)
  · exact hDash hBase

/-- The state before the first step. -/
def NameState.start (block : Vector CChar (prefixSize + pathMaxLength)) : NameState :=
  { stage := .copyPrefix, prefixedName := block }

theorem NameInvariant.start (filename : CText) (block : Vector CChar (prefixSize + pathMaxLength)) :
    NameInvariant filename (.start block) := ⟨Nat.zero_le _, trivial⟩

/-- The loop makes the steps that replace the dashes. -/
theorem replaceDashes_path {fuel : Nat} {built : Vector CChar (prefixSize + pathMaxLength)}
    (hStage : state.stage = .replaceDash)
    (hLoop : replaceDashes fuel state.prefixedName state.dashPos = .ok built) :
    ∃ stages final, Path (NameStep filename) state stages final ∧ final.stage = .lookUp ∧
      final.prefixedName = built := by
  induction fuel generalizing state with
  | zero => cases hLoop
  | succ fuel ih =>
      rw [replaceDashes] at hLoop
      cases hFind : strchr state.prefixedName state.dashPos (chr '-') with
      | none =>
          rw [hFind] at hLoop
          cases hLoop
      | some found =>
          rw [hFind, inBounds_some, Exec.ok_bind] at hLoop
          cases found with
          | none =>
              cases hLoop
              refine ⟨[.replaceDash], { state with stage := .lookUp },
                Path.cons ⟨hStage, by decide, ?_⟩ (Path.nil _), rfl, rfl⟩
              simp only [NameState.step, hStage, hFind, inBounds_some, Exec.ok_bind]
              rfl
          | some dashPos =>
              cases hStore : store state.prefixedName dashPos (chr '_') with
              | none =>
                  simp only [hStore] at hLoop
                  cases hLoop
              | some block =>
                  simp only [hStore, inBounds_some, Exec.ok_bind] at hLoop
                  obtain ⟨stages, final, hPath, hFinal⟩ :=
                    @ih { state with prefixedName := block, dashPos := dashPos + 1 } hStage hLoop
                  refine ⟨.replaceDash :: stages, final, Path.cons ⟨hStage, by decide, ?_⟩ hPath,
                    hFinal⟩
                  simp only [NameState.step, hStage, hFind, hStore, inBounds_some, Exec.ok_bind]
                  rfl

theorem skipLib_step {sepPos namePos : Nat} {block : Vector CChar (prefixSize + pathMaxLength)}
    (hFind : (do
      if strncmp (← textFrom filename sepPos) libPrefix libPrefix.length then
        return sepPos + libPrefix.length
      else return sepPos : Exec Nat) = .ok namePos) :
    NameStep filename { stage := .skipLib, prefixedName := block, namePos := sepPos } .skipLib
      { stage := .copyBaseName, prefixedName := block, namePos } := by
  obtain ⟨name, hName, hFind⟩ := (bind_eq_ok_iff _ _ _).mp hFind
  refine ⟨rfl, by decide, ?_⟩
  simp only [NameState.step, hName, Exec.ok_bind]
  split at hFind
  · rename_i hLib
    cases hFind
    rw [if_pos hLib]
    rfl
  · rename_i hLib
    cases hFind
    rw [if_neg hLib]
    rfl

/-- The two steps that find the name move the pointer where `findName` says. -/
theorem findName_path {namePos : Nat} {block : Vector CChar (prefixSize + pathMaxLength)}
    (hFind : findName filename = .ok namePos) :
    Path (NameStep filename) { stage := .findSeparator, prefixedName := block }
      [.findSeparator, .skipLib] { stage := .copyBaseName, prefixedName := block, namePos } := by
  unfold findName at hFind
  cases hSep : strrchr filename (chr '/') with
  | none =>
      rw [hSep] at hFind
      refine Path.cons ⟨rfl, by decide, ?_⟩ (Path.cons (skipLib_step hFind) (Path.nil _))
      simp only [NameState.step, hSep]
  | some sepPos =>
      rw [hSep] at hFind
      refine Path.cons ⟨rfl, by decide, ?_⟩ (Path.cons (skipLib_step hFind) (Path.nil _))
      simp only [NameState.step, hSep]

/-- The steps are those of `qrvmc_load`: they end, with the buffer that it ends with. -/
theorem buildName_path (filename : CText) (block : Vector CChar (prefixSize + pathMaxLength)) :
    ∃ stages final, Path (NameStep filename) (.start block) stages final ∧
      final.stage = .lookUp ∧ buildName block filename = .ok final.prefixedName := by
  obtain ⟨built, hBuilt, _⟩ := buildName_holds block filename
  have hRun := hBuilt
  simp only [buildName, bind_eq_ok_iff] at hRun
  obtain ⟨⟨first, _⟩, hFirst, namePos, hFind, base, hBase, ⟨second, _⟩, hSecond, trimmed, hTrimmed,
    hLoop⟩ := hRun
  obtain ⟨stages, final, hLast, hStage, hFinal⟩ := @replaceDashes_path filename
    { stage := .replaceDash, prefixedName := trimmed, namePos, dashPos := createFnPrefix.length }
    _ _ rfl hLoop
  have hCopy : NameStep filename { stage := .copyBaseName, prefixedName := first, namePos }
      .copyBaseName { stage := .trimExtensions, prefixedName := second, namePos } := by
    refine ⟨rfl, by decide, ?_⟩
    simp only [NameState.step, hBase, hSecond, Exec.ok_bind]
    rfl
  have hTrim : NameStep filename { stage := .trimExtensions, prefixedName := second, namePos }
      .trimExtensions { stage := .replaceDash, prefixedName := trimmed, namePos,
                        dashPos := createFnPrefix.length } := by
    refine ⟨rfl, by decide, ?_⟩
    simp only [NameState.step, hTrimmed, Exec.ok_bind]
    rfl
  have hPrefix : NameStep filename (.start block) .copyPrefix
      { stage := .findSeparator, prefixedName := first } := by
    refine ⟨rfl, by decide, ?_⟩
    simp only [NameState.step, NameState.start, hFirst, Exec.ok_bind]
    rfl
  refine ⟨_, final, Path.cons hPrefix ((findName_path hFind).append
    (Path.cons hCopy (Path.cons hTrim hLast))), hStage, ?_⟩
  rw [hBuilt, hFinal]

/-- Whatever the file name is, the steps do not fail and stay in its buffer and in the file
name. From the first copy on the buffer holds a terminated name with the prefix, and the
name that is looked up has no dash. -/
theorem name_buffer_safety (filename : CText) (block : Vector CChar (prefixSize + pathMaxLength)) :
    (∀ stages state, Path (NameStep filename) (.start block) stages state →
      (state.stage ≠ .lookUp → ∃ next, NameStep filename state state.stage next) ∧
      (state.stage ≠ .copyPrefix →
        ∃ name, Holds state.prefixedName.toList 0 name ∧ createFnPrefix.chars <+: name.chars) ∧
      state.namePos ≤ filename.length ∧
      (state.stage = .lookUp →
        ∃ name, Holds state.prefixedName.toList 0 name ∧ chr '-' ∉ name.chars) ∧
      stages.length ≤ pathMaxLength + 6) ∧
    ∃ stages final, Path (NameStep filename) (.start block) stages final ∧
      final.stage = .lookUp ∧ buildName block filename = .ok final.prefixedName := by
  refine ⟨fun stages state hPath => ?_, buildName_path filename block⟩
  have hStart := NameInvariant.start filename block
  have hInvariant : NameInvariant filename state :=
    hPath.invariant (fun _ _ _ hState hStep => (hState.next hStep).1) hStart
  have hLength := hPath.length_le (fun _ _ _ hState hStep => hState.next hStep) hStart
  refine ⟨fun hStage => ?_, hInvariant.name, hInvariant.inside, hInvariant.no_dash, ?_⟩
  · obtain ⟨next, hStep, _⟩ := hInvariant.advances hStage
    exact ⟨next, rfl, hStage, hStep⟩
  · exact Nat.le_trans (Nat.le_add_right ..) hLength

end Qrvmc

import Qrvmc.Loader.Buffers

/-! The name of the create function that a file name leads to. The buffer for the
name is large enough at every step, and the name is built as documented. -/
namespace Qrvmc
open Memory

variable {n : Nat}

def underscore (c : CChar) : CChar := if c = chr '-' then chr '_' else c

theorem underscore_ne_zero {c : CChar} (h : c ≠ 0) : underscore c ≠ 0 := by
  unfold underscore
  split
  · decide
  · exact h

/-- A text with its dashes replaced. -/
def underscores (t : CText) : CText :=
  ⟨t.chars.map underscore, fun h => by
    obtain ⟨c, hChar, hZero⟩ := List.mem_map.mp h
    exact underscore_ne_zero (fun hNul => t.noNul (hNul ▸ hChar)) hZero⟩

theorem map_underscore_of_not_mem {chars : List CChar} (h : chr '-' ∉ chars) :
    chars.map underscore = chars := by
  conv_rhs => rw [← List.map_id chars]
  apply List.map_congr_left
  intro c hChar
  exact if_neg fun hDash : c = chr '-' => h (hDash ▸ hChar)

theorem underscores_of_not_mem {t : CText} (h : chr '-' ∉ t.chars) : underscores t = t :=
  Text.ext (map_underscore_of_not_mem h)

/-- The first dash is replaced, and then those after it. -/
theorem underscores_of_mem {t : CText} (h : chr '-' ∈ t.chars) :
    (underscores t).chars =
      t.chars.take (t.chars.idxOf (chr '-')) ++ [chr '_'] ++ (underscores (t.after (chr '-'))).chars := by
  have hBefore : (t.before (chr '-')).chars.map underscore =
      t.chars.take (t.chars.idxOf (chr '-')) :=
    map_underscore_of_not_mem (Text.not_mem_before t (chr '-'))
  calc (underscores t).chars
      = ((t.before (chr '-')).chars ++ chr '-' :: (t.after (chr '-')).chars).map underscore := by
        rw [← Text.chars_eq_of_mem h]
        rfl
    _ = _ := by
        rw [List.map_append, List.map_cons, hBefore, List.append_assoc]
        rfl

/-- The loop ends at the end of the text with each dash replaced, and has touched
nothing in front of it. -/
theorem replaceDashes_holds {fuel : Nat} {block : Vector CChar n} {pos : Nat} {t : CText}
    (h : Holds block.toList pos t) (hFuel : t.length < fuel) :
    ∃ replaced, replaceDashes fuel block pos = .ok replaced ∧
      Holds replaced.toList pos (underscores t) ∧
      replaced.toList.take pos = block.toList.take pos := by
  induction fuel generalizing block pos t with
  | zero => omega
  | succ fuel ih =>
      by_cases hDash : chr '-' ∈ t.chars
      · have hIndex : t.chars.idxOf (chr '-') < t.length := List.idxOf_lt_length_of_mem hDash
        have hPos : pos + t.chars.idxOf (chr '-') < n := by
          have hEnd := h.lt
          rw [Vector.length_toList] at hEnd
          omega
        have hSet : (block.set (pos + t.chars.idxOf (chr '-')) (chr '_')).toList =
            block.toList.set (pos + t.chars.idxOf (chr '-')) (chr '_') := Vector.toList_set ..
        have hRest : Holds (block.set (pos + t.chars.idxOf (chr '-')) (chr '_')).toList
            (pos + t.chars.idxOf (chr '-') + 1) (t.after (chr '-')) := by
          rw [hSet]
          exact (h.drop hIndex).set_before (Nat.lt_succ_self _) (chr '_')
        have hShorter := Text.length_after_lt (List.ne_nil_of_mem hDash) (chr '-')
        obtain ⟨replaced, hReplaced, hHolds, hFrame⟩ := ih hRest (by omega)
        rw [hSet] at hFrame
        refine ⟨replaced, ?_, h.overwrite hIndex hFrame hHolds (underscores_of_mem hDash), ?_⟩
        · simp only [replaceDashes, h.strchr, hDash, ↓reduceIte, inBounds_some, Exec.ok_bind,
            store_eq hPos]
          exact hReplaced
        · have hTake := congrArg (List.take pos) hFrame
          rw [List.take_take, List.take_take, Nat.min_eq_left (by omega),
            List.take_set_of_le (by omega)] at hTake
          exact hTake
      · refine ⟨block, ?_, ?_, rfl⟩
        · simp only [replaceDashes, h.strchr, hDash, ↓reduceIte, inBounds_some, Exec.ok_bind]
          rfl
        · rw [underscores_of_not_mem hDash]
          exact h

/-- The file name without its directories and without one leading `lib`. -/
def moduleName (filename : CText) : CText :=
  let name := match strrchr filename (chr '/') with
    | some pos => filename.drop (pos + 1)
    | none => filename
  if strncmp name libPrefix libPrefix.length then name.drop libPrefix.length else name

/-- A module name too long for the buffer is replaced by the empty one. -/
def baseName (filename : CText) : CText :=
  if (moduleName filename).length < pathMaxLength then moduleName filename else text ""

theorem baseName_length_lt (filename : CText) : (baseName filename).length < pathMaxLength := by
  unfold baseName
  split
  · assumption
  · decide

/-- The name that `qrvmc_load` looks up first. -/
def createFnName (filename : CText) : CText :=
  createFnPrefix.append (underscores ((baseName filename).before (chr '.')))

theorem strrchr_lt {t : CText} {c : CChar} {pos : Nat} (h : strrchr t c = some pos) :
    pos < t.length := by
  unfold strrchr at h
  split at h
  · cases h
    have hPositive := List.length_pos_of_mem ‹c ∈ t.chars›
    unfold Text.length
    omega
  · cases h

theorem length_of_strncmp {t pattern : CText} (h : strncmp t pattern pattern.length) :
    pattern.length ≤ t.length := by
  simp only [strncmp, beq_iff_eq] at h
  have hLength := congrArg List.length h
  rw [List.length_take, List.length_take] at hLength
  unfold Text.length at hLength ⊢
  omega

theorem textFrom_eq {t : CText} {pos : Nat} (h : pos ≤ t.length) :
    textFrom t pos = .ok (t.drop pos) := if_pos h

theorem drop_drop (t : CText) (first second : Nat) :
    (t.drop first).drop second = t.drop (first + second) :=
  Text.ext (List.drop_drop ..)

/-- The position found lies inside the file name, at the module name. -/
theorem findName_eq (filename : CText) :
    ∃ pos, findName filename = .ok pos ∧ textFrom filename pos = .ok (moduleName filename) := by
  have hFind (namePos : Nat) (hPos : namePos ≤ filename.length) :
      ∃ pos, (do
        if strncmp (← textFrom filename namePos) libPrefix libPrefix.length then
          return namePos + libPrefix.length
        else return namePos : Exec Nat) = .ok pos ∧
        textFrom filename pos = .ok (if strncmp (filename.drop namePos) libPrefix
          libPrefix.length then (filename.drop namePos).drop libPrefix.length
          else filename.drop namePos) := by
    simp only [textFrom_eq hPos, Exec.ok_bind]
    split
    · rename_i hLib
      have hLength := length_of_strncmp hLib
      have hDrop : (filename.drop namePos).length = filename.length - namePos := List.length_drop ..
      refine ⟨_, rfl, ?_⟩
      rw [textFrom_eq (by omega), drop_drop]
    · exact ⟨_, rfl, textFrom_eq hPos⟩
  unfold findName moduleName
  cases hSep : strrchr filename (chr '/') with
  | none => exact hFind 0 (Nat.zero_le _)
  | some sepPos => exact hFind (sepPos + 1) (strrchr_lt hSep)

/-- The base name is copied behind the prefix, where it fits or else empty. -/
theorem strcpySx_baseName (block : Vector CChar (prefixSize + pathMaxLength)) {pos : Nat}
    (hPos : pos < prefixSize) (filename : CText) :
    ∃ copied failed, strcpySx block pos pathMaxLength (moduleName filename) =
        .ok (copied, failed) ∧
      Holds copied.toList pos (baseName filename) ∧
      copied.toList.take pos = block.toList.take pos := by
  unfold baseName
  exact strcpySx_holds block (moduleName filename) (by omega) (by decide)

theorem take_of_holds {block : List CChar} {t : CText} (h : Holds block 0 t) :
    block.take t.length = t.chars := by
  obtain ⟨post, hBlock⟩ := h
  rw [List.drop_zero] at hBlock
  rw [hBlock]
  exact List.take_left' rfl

/-- A text behind the prefix makes the name with it. -/
theorem holds_append {block : List CChar} {first second : CText}
    (hFirst : block.take first.length = first.chars) (hSecond : Holds block first.length second) :
    Holds block 0 (first.append second) :=
  Holds.prepend (by rw [List.drop_zero]; exact hFirst) (by rwa [Nat.zero_add]) rfl

/-- Cutting at the first dot of the whole name cuts the base name at its first dot,
since the prefix has none. -/
theorem cutExtension_holds {block : Vector CChar n} {first second : CText}
    (hDot : chr '.' ∉ first.chars) (hFirst : block.toList.take first.length = first.chars)
    (hSecond : Holds block.toList first.length second) :
    ∃ trimmed, cutExtension block = .ok trimmed ∧
      Holds trimmed.toList first.length (second.before (chr '.')) ∧
      trimmed.toList.take first.length = first.chars := by
  have hWhole := holds_append hFirst hSecond
  have hMem : chr '.' ∈ (first.append second).chars ↔ chr '.' ∈ second.chars := by
    simp [Text.append, hDot]
  by_cases hExtension : chr '.' ∈ second.chars
  · have hIndex : (first.append second).chars.idxOf (chr '.') =
        first.length + second.chars.idxOf (chr '.') := by
      rw [Text.append, List.idxOf_append, if_neg hDot, Nat.add_comm]
      rfl
    have hInside : second.chars.idxOf (chr '.') < second.length :=
      List.idxOf_lt_length_of_mem hExtension
    have hPos : first.length + second.chars.idxOf (chr '.') < n := by
      have hEnd := hSecond.lt
      rw [Vector.length_toList] at hEnd
      omega
    refine ⟨block.set (first.length + second.chars.idxOf (chr '.')) 0, ?_, ?_, ?_⟩
    · simp only [cutExtension, hWhole.strchr, hMem, hExtension, ↓reduceIte, inBounds_some,
        Exec.ok_bind, hIndex, Nat.zero_add, store_eq hPos]
    · rw [Vector.toList_set]
      exact hSecond.cut (Nat.le_of_lt hInside)
    · rw [Vector.toList_set, List.take_set_of_le (Nat.le_add_right ..), hFirst]
  · refine ⟨block, ?_, ?_, hFirst⟩
    · simp only [cutExtension, hWhole.strchr, hMem, hExtension, ↓reduceIte, inBounds_some, Exec.ok_bind]
      rfl
    · rw [Text.before_of_not_mem hExtension]
      exact hSecond

/-- The buffer ends up with the create function's name, for every file name. -/
theorem buildName_holds (block : Vector CChar (prefixSize + pathMaxLength)) (filename : CText) :
    ∃ built, buildName block filename = .ok built ∧
      Holds built.toList 0 (createFnName filename) := by
  have hPrefix : createFnPrefix.length = 13 := by decide
  have hDot : chr '.' ∉ createFnPrefix.chars := by decide
  obtain ⟨prefixed, hPrefixed, hHolds, _⟩ := strcpySx_fits block 0 (prefixSize + pathMaxLength)
    createFnPrefix (by omega) (by rw [hPrefix]; decide)
  obtain ⟨namePos, hFind, hName⟩ := findName_eq filename
  obtain ⟨copied, failed, hCopied, hBase, hFrame⟩ := strcpySx_baseName prefixed
    (by rw [hPrefix]; decide : createFnPrefix.length < prefixSize) filename
  have hHead : copied.toList.take createFnPrefix.length =
      createFnPrefix.chars := hFrame.trans (take_of_holds hHolds)
  obtain ⟨trimmed, hTrimmed, hTrunk, hTrunkHead⟩ := cutExtension_holds hDot hHead hBase
  obtain ⟨built, hBuilt, hUnderscores, hBuiltFrame⟩ := replaceDashes_holds hTrunk
    (Nat.lt_of_le_of_lt (Text.length_before_le ..) (baseName_length_lt filename))
  refine ⟨built, ?_, holds_append (hBuiltFrame.trans hTrunkHead) hUnderscores⟩
  simp only [buildName, hPrefixed, Exec.ok_bind, hFind, hName, hCopied, hTrimmed, hBuilt]

end Qrvmc

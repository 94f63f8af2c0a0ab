import Mathlib.Data.List.DropRight
import Qrvmc.Loader.LoadAndCreate

/-! The documented rule for the name of the create function, and the symbols that a
module is searched for. The buffer for the name has room for the longest file name,
but its copy does not use the last cell. -/
namespace Qrvmc
open Memory Semantics Loader

variable {env : Env} {world : World} {filename : CText}

/-- The name of the create function by the rules of the documentation: that of the
file without its directories, `lib` and extensions, with each dash replaced. -/
def documentedName (filename : CText) : List CChar :=
  let file := filename.chars.rtakeWhile (· ≠ chr '/')
  let name := if libPrefix.chars <+: file then file.drop libPrefix.length else file
  createFnPrefix.chars ++ (name.takeWhile (· ≠ chr '.')).map underscore

theorem rtakeWhile_of_not_mem {chars : List CChar} {c : CChar} (h : c ∉ chars) :
    chars.rtakeWhile (· ≠ c) = chars :=
  List.rtakeWhile_eq_self_iff.mpr fun _ hOther => decide_eq_true fun hSame => h (hSame ▸ hOther)

/-- What stands after the last separator is what the path has without one at its end. -/
theorem chars_after_strrchr (t : CText) (c : CChar) :
    (match strrchr t c with
      | some pos => t.drop (pos + 1)
      | none => t).chars = t.chars.rtakeWhile (· ≠ c) := by
  by_cases hMem : c ∈ t.chars
  · have hIndex : t.chars.reverse.idxOf c < t.length := by
      rw [Text.length, ← List.length_reverse]
      exact List.idxOf_lt_length_of_mem (List.mem_reverse.mpr hMem)
    have hTake : t.chars.reverse.takeWhile (· ≠ c) =
        t.chars.reverse.take (t.chars.reverse.idxOf c) := by
      simp [List.takeWhile_eq_take_findIdx_not, List.idxOf, Bool.beq_eq_decide_eq]
    rw [strrchr, if_pos hMem, List.rtakeWhile, hTake, List.reverse_take, List.reverse_reverse,
      List.length_reverse]
    show t.chars.drop _ = t.chars.drop (t.length - _)
    congr 1
    omega
  · rw [strrchr, if_neg hMem, rtakeWhile_of_not_mem hMem]

theorem strncmp_iff (t pattern : CText) :
    strncmp t pattern pattern.length = true ↔ pattern.chars <+: t.chars := by
  rw [strncmp, beq_iff_eq, List.prefix_iff_eq_take, Text.length, List.take_length]
  exact eq_comm

/-- The module name is what the documentation takes from the file name. -/
theorem moduleName_chars (filename : CText) :
    (moduleName filename).chars =
      if libPrefix.chars <+: filename.chars.rtakeWhile (· ≠ chr '/') then
        (filename.chars.rtakeWhile (· ≠ chr '/')).drop libPrefix.length
      else filename.chars.rtakeWhile (· ≠ chr '/') := by
  have hStrip (file : CText) :
      (if strncmp file libPrefix libPrefix.length then file.drop libPrefix.length else file).chars =
        if libPrefix.chars <+: file.chars then file.chars.drop libPrefix.length else file.chars := by
    simp only [strncmp_iff]
    split <;> rfl
  rw [← chars_after_strrchr]
  exact hStrip _

/-- A file name of the largest length leads to a shorter module name unless nothing
is taken off. -/
theorem moduleName_length_lt (hLength : filename.length ≤ pathMaxLength) :
    (moduleName filename).length < pathMaxLength ↔
      filename.length < pathMaxLength ∨ chr '/' ∈ filename.chars ∨
        libPrefix.chars <+: filename.chars := by
  have hChars := moduleName_chars filename
  have hSuffix : filename.chars.rtakeWhile (· ≠ chr '/') <:+ filename.chars :=
    List.rtakeWhile_suffix _ _
  have hName : (moduleName filename).length ≤
      (filename.chars.rtakeWhile (· ≠ chr '/')).length := by
    rw [Text.length, hChars]
    split
    · exact (List.length_drop ..).trans_le (Nat.sub_le ..)
    · exact Nat.le_refl _
  constructor
  · intro hShort
    by_contra hNone
    obtain ⟨hLong, hSep, hLib⟩ : ¬ filename.length < pathMaxLength ∧
        chr '/' ∉ filename.chars ∧ ¬ libPrefix.chars <+: filename.chars := by
      simpa only [not_or] using hNone
    rw [rtakeWhile_of_not_mem hSep, if_neg hLib] at hChars
    exact hLong ((congrArg List.length hChars).symm.trans_lt hShort)
  · intro hTaken
    by_cases hSep : chr '/' ∈ filename.chars
    · have hProper : (filename.chars.rtakeWhile (· ≠ chr '/')).length < filename.length := by
        refine lt_of_le_of_ne hSuffix.length_le fun hEqual => ?_
        have hAll := List.rtakeWhile_eq_self_iff.mp (hSuffix.eq_of_length hEqual)
        exact of_decide_eq_true (hAll _ hSep) rfl
      omega
    · rw [rtakeWhile_of_not_mem hSep] at hChars hName
      rcases hTaken with hShort | hMem | hLib
      · exact Nat.lt_of_le_of_lt hName hShort
      · exact absurd hMem hSep
      · have hFits : libPrefix.length ≤ filename.length := hLib.length_le
        have hPositive : 0 < libPrefix.length := by decide
        rw [if_pos hLib] at hChars
        rw [Text.length, hChars, List.length_drop]
        show filename.length - libPrefix.length < pathMaxLength
        omega

/-- The name that is searched for is the documented one, except for a file name of
the largest length of which nothing is taken off and something stays. -/
theorem createFnName_chars_iff (hLength : filename.length ≤ pathMaxLength) :
    (createFnName filename).chars = documentedName filename ↔
      filename.length < pathMaxLength ∨ chr '/' ∈ filename.chars ∨
        libPrefix.chars <+: filename.chars ∨ filename.chars.head? = some (chr '.') := by
  have hDocumented : documentedName filename = createFnPrefix.chars ++
      ((moduleName filename).chars.takeWhile (· ≠ chr '.')).map underscore := by
    rw [moduleName_chars]
    rfl
  have hName : (createFnName filename).chars = createFnPrefix.chars ++
      ((baseName filename).chars.takeWhile (· ≠ chr '.')).map underscore := by
    rw [← Text.before_chars]
    rfl
  rw [hName, hDocumented, List.append_cancel_left_eq]
  rcases Nat.lt_or_ge (moduleName filename).length pathMaxLength with hFits | hLong
  · rw [baseName, if_pos hFits]
    have hTaken := (moduleName_length_lt hLength).mp hFits
    exact ⟨fun _ => hTaken.imp_right fun hPart => hPart.imp_right .inl, fun _ => rfl⟩
  · have hNone := (not_congr (moduleName_length_lt hLength)).mp (Nat.not_lt.mpr hLong)
    simp only [not_or] at hNone
    obtain ⟨hShort, hSep, hLib⟩ := hNone
    have hModule : (moduleName filename).chars = filename.chars := by
      rw [moduleName_chars, rtakeWhile_of_not_mem hSep, if_neg hLib]
    rw [baseName, if_neg (Nat.not_lt.mpr hLong), hModule]
    cases hChars : filename.chars with
    | nil =>
        exact absurd (show filename.length < pathMaxLength by rw [Text.length, hChars]; decide) hShort
    | cons c rest =>
        rw [hChars] at hSep hLib
        by_cases hDot : c = chr '.'
        · simp [hDot, text, lit]
        · simp [hDot, hShort, hSep, hLib, text, lit]

/-- The symbol that an event looks up, with what is found under it. -/
def Event.lookedUp : Event → Option (List CChar × Option CreateFn)
  | .dllGetCreateFn _ name createFn => some (name.chars, createFn)
  | _ => none

/-- A name is looked up first, and the general one only if that is missing. What is
returned is what is found first. -/
inductive FirstFound (name : List CChar) :
    List (List CChar × Option CreateFn) → Option CreateFn → Prop where
  | named {createFn : CreateFn} : FirstFound name [(name, some createFn)] (some createFn)
  | general {found : Option CreateFn} :
      FirstFound name [(name, none), (lit "qrvmc_create", found)] found

/-- Only one name can have been looked up first. -/
theorem FirstFound.iff {name other : List CChar} {lookups : List (List CChar × Option CreateFn)}
    {found : Option CreateFn} (h : FirstFound name lookups found) :
    FirstFound other lookups found ↔ name = other := by
  constructor
  · intro hOther
    cases h <;> cases hOther <;> rfl
  · intro hSame
    rw [← hSame]
    exact h

/-- An attempt to open a module or to create an instance. -/
def Event.attempts : Event → Bool
  | .dllOpen .. => true
  | .create .. => true
  | _ => false

/-- How the search for a file name of a valid length goes: the module is opened once,
and if it opens it is searched for the name built from its file name. -/
structure Searches (opened : Option DllHandle) (filename : CText) (found : Option CreateFn)
    (events : List Event) : Prop where
  attempts : events.filter Event.attempts = [.dllOpen filename opened]
  lookups : opened.isSome →
    FirstFound (createFnName filename).chars (events.filterMap Event.lookedUp) found

theorem loadCreateFn_searches (env : Env) (hNonempty : filename.length ≠ 0)
    (hLength : filename.length ≤ pathMaxLength) :
    Returns World.trace (loadCreateFn env (some filename)) world fun result events _ =>
      Searches (env.dllOpen world.trace filename) filename result.1 events := by
  simp only [loadCreateFn, hNonempty, Nat.not_lt.mpr hLength, ↓reduceIte]
  cases hOpen : env.dllOpen world.trace filename with
  | none =>
      apply asked_bind hOpen
      apply ask_bind
      intro answer
      cases answer with
      | some output =>
          apply Returns.modify_bind rfl
          apply emit_bind
          exact Returns.pure ⟨rfl, fun hSome => by cases hSome⟩
      | none =>
          apply Returns.modify_bind rfl
          apply (setError_returns _ _ _).bind
          rintro ec _ final ⟨_, rfl, _⟩
          exact Returns.pure ⟨rfl, fun hSome => by cases hSome⟩
  | some handle =>
      obtain ⟨built, hBuilt, hHolds⟩ := buildName_holds (env.uninitializedName
        (world.log (.dllOpen filename (some handle))).trace) filename
      apply asked_bind hOpen
      apply Returns.get_bind
      apply Returns.lift_bind hBuilt
      rw [hHolds.textAt]
      apply Returns.lift_bind rfl
      apply ask_bind
      intro createFn
      cases createFn with
      | some createFn => exact Returns.pure ⟨rfl, fun _ => .named⟩
      | none =>
          apply ask_bind
          intro createFn
          cases createFn with
          | some createFn => exact Returns.pure ⟨rfl, fun _ => .general⟩
          | none =>
              apply emit_bind
              apply (setError_returns _ _ _).bind
              rintro ec _ final ⟨_, rfl, _⟩
              exact Returns.pure ⟨rfl, fun _ => .general⟩

theorem qrvmcLoad_searches (env : Env) (world : World) (hNonempty : filename.length ≠ 0)
    (hLength : filename.length ≤ pathMaxLength) :
    Writes (qrvmcLoad env (some filename)) world fun result events final =>
      Ends .absent [filename] result .absent events final ∧
        Searches (env.dllOpen world.trace filename) filename result.1 events :=
  qrvmcLoad_of_returns
    ((loadCreateFn_some env filename rfl).and (loadCreateFn_searches env hNonempty hLength))

/-- For every file name of a valid length whose module opens, whatever the environment
does: the documented name is looked up first, and then the general one if needed, if
and only if the file name is shorter than the limit, something is taken off it, or
it starts with an extension. -/
theorem qrvmcLoad_createFnName (env : Env) (filename : CText) (errorCode : ErrorCodePtr)
    (world : World) (hNonempty : filename.length ≠ 0) (hLength : filename.length ≤ pathMaxLength)
    (hOpen : (env.dllOpen world.trace filename).isSome) :
    ∃ createFn ec events final,
      qrvmcLoad env (some filename) errorCode world = .ok ((createFn, errorCode.write ec), final) ∧
      final.trace = world.trace ++ events ∧
      (FirstFound (documentedName filename) (events.filterMap Event.lookedUp) createFn ↔
        filename.length < pathMaxLength ∨ chr '/' ∈ filename.chars ∨
          libPrefix.chars <+: filename.chars ∨ filename.chars.head? = some (chr '.')) := by
  obtain ⟨result, events, final, hRun, hTrace, _, hSearches⟩ :=
    qrvmcLoad_searches env world hNonempty hLength
  exact ⟨result.1, result.2, events, final, hRun errorCode, hTrace,
    (hSearches.lookups hOpen).iff.trans (createFnName_chars_iff hLength)⟩

theorem qrvmcLoad_createFnName_interpreter :
    ∃ createFn final,
      qrvmcLoad (.obliging ⟨0, qrvmcAbiVersion, text "vm", true⟩)
        (some (text "/qrl/libexample-interpreter.so.1.0")) .null {} =
          .ok ((createFn, .null), final) ∧
      FirstFound (lit "qrvmc_create_example_interpreter") (final.trace.filterMap Event.lookedUp)
        createFn := by
  obtain ⟨createFn, _, events, final, hRun, hTrace, hFirst⟩ :=
    qrvmcLoad_createFnName (.obliging ⟨0, qrvmcAbiVersion, text "vm", true⟩)
      (text "/qrl/libexample-interpreter.so.1.0") .null {} (by decide) (by decide) rfl
  have hName : documentedName (text "/qrl/libexample-interpreter.so.1.0") =
      lit "qrvmc_create_example_interpreter" := by decide
  refine ⟨createFn, final, hRun, ?_⟩
  rw [hTrace, ← hName]
  exact hFirst.mpr (.inl (by decide))

/-- A file name of the largest length of which nothing is taken off. -/
def longestName : CText :=
  ⟨List.replicate pathMaxLength (chr 'a'), fun hNul =>
    absurd (List.eq_of_mem_replicate hNul) (by decide)⟩

theorem longestName_length : longestName.length = pathMaxLength := List.length_replicate

theorem mem_longestName {c : CChar} (h : c ∈ longestName.chars) : c = chr 'a' :=
  List.eq_of_mem_replicate h

/-- The name that is searched for is not the documented one. -/
theorem qrvmcLoad_createFnName_longest :
    ∃ createFn final,
      qrvmcLoad (.obliging ⟨0, qrvmcAbiVersion, text "vm", true⟩) (some longestName) .null {} =
        .ok ((createFn, .null), final) ∧
      ¬ FirstFound (documentedName longestName) (final.trace.filterMap Event.lookedUp) createFn := by
  obtain ⟨result, events, final, hRun, hTrace, _, hSearches⟩ :=
    @qrvmcLoad_searches longestName (.obliging ⟨0, qrvmcAbiVersion, text "vm", true⟩) {}
      (by rw [longestName_length]; decide) longestName_length.le
  refine ⟨result.1, final, hRun .null, ?_⟩
  rw [hTrace, List.nil_append, (hSearches.lookups rfl).iff,
    createFnName_chars_iff longestName_length.le]
  rintro (hShort | hSep | hLib | hDot)
  · exact absurd hShort (longestName_length ▸ Nat.lt_irrefl _)
  · exact absurd (mem_longestName hSep) (by decide)
  · exact absurd (mem_longestName (hLib.subset (List.mem_cons_self ..))) (by decide)
  · exact absurd (Option.some.inj hDot) (by decide)

end Qrvmc

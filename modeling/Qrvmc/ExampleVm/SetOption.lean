import Qrvmc.Hex.FilterIterator
import Qrvmc.Loader.OptionErrors

/-! The option of the example VM, and the VM behind the loader. The loader sets the options
of a configuration in order, and the last of them decides the verbosity. The first that is
not accepted decides the error code. -/
namespace Qrvmc.ExampleVm
open Memory

/-- The value of a digit of a base up to 36. -/
def digitValue (c : CChar) : Option Nat :=
  let code := c.toInt
  if 48 ≤ code ∧ code ≤ 57 then some (code - 48).toNat
  else if 97 ≤ code ∧ code ≤ 122 then some (code - 87).toNat
  else if 65 ≤ code ∧ code ≤ 90 then some (code - 55).toNat
  else none

/-- The digits of a base in front of a text. -/
def digitsIn (base : Nat) : List CChar → List Nat
  | [] => []
  | c :: rest =>
      match digitValue c with
      | some digit => if digit < base then digit :: digitsIn base rest else []
      | none => []

/-- The base that base 0 stands for in front of a text, with the digits of it. -/
def numeral (text : List CChar) : Nat × List Nat :=
  let hexDigits := digitsIn 16 (text.drop 2)
  if (text.take 2 = lit "0x" ∨ text.take 2 = lit "0X") ∧ hexDigits ≠ [] then (16, hexDigits)
  else if text.head? = some (chr '0') then (8, digitsIn 8 text)
  else (10, digitsIn 10 text)

/-- The nearest value of the type `long`. -/
def clampLong (value : Int) : Int := max (-0x8000000000000000) (min value 0x7fffffffffffffff)

/-- `strtol` with base 0. There is no value where `end` is left at the start. -/
def strtol (value : List CChar) : Option Int :=
  let text := value.dropWhile isspace
  let negative := text.head? = some (chr '-')
  let signed := negative ∨ text.head? = some (chr '+')
  let (base, digits) := numeral (if signed then text.drop 1 else text)
  if digits = [] then none
  else
    let magnitude : Int := digits.foldl (fun read digit => read * base + digit) 0
    some (clampLong (if negative then -magnitude else magnitude))

inductive SetOptionResult where
  | success
  | invalidName
  | invalidValue
  deriving DecidableEq

/-- The number of the enumerator. -/
def SetOptionResult.toInt32 : SetOptionResult → Int32
  | .success => 0
  | .invalidName => 1
  | .invalidValue => 2

/-- `set_option`, with the verbosity that it leaves. -/
def setOption (verbose : Int32) (name : CText) (value : Option CText) :
    SetOptionResult × Int32 :=
  if name.chars = lit "verbose" then
    match value with
    | none => (.invalidValue, verbose)
    | some value =>
        match strtol value.chars with
        | none => (.invalidValue, verbose)
        | some v =>
            if v > 9 ∨ v < -1 then (.invalidValue, verbose) else (.success, Int32.ofInt v)
  else (.invalidName, verbose)

/-- The verbosity after calls of the method. -/
def verbosity (calls : List (CText × Option CText)) : Int32 :=
  calls.foldl (fun verbose call => (setOption verbose call.1 call.2).2) 0

/-- What an option of a configuration asks for. -/
def optionVerbosity (option : List CChar) : Except LoaderErrorCode Int32 :=
  if option.takeWhile (· ≠ chr '=') = lit "verbose" then
    match strtol (option.drop (option.idxOf (chr '=') + 1)) with
    | none => .error .invalidOptionValue
    | some v => if v > 9 ∨ v < -1 then .error .invalidOptionValue else .ok (Int32.ofInt v)
  else .error .invalidOptionName

/-- What the options of a configuration come to. -/
def optionsVerbosity (options : List (List CChar)) (verbose : Int32) :
    Except LoaderErrorCode Int32 :=
  match options with
  | [] => .ok verbose
  | option :: rest => do
      let verbose ← optionVerbosity option
      optionsVerbosity rest verbose

/-- The verbosity that the options of a configuration leave, if they are all accepted. -/
def configuredVerbosity (config : CText) : Int32 :=
  match optionsVerbosity ((config.after (chr ',')).tokens (chr ',')) 0 with
  | .ok verbose => verbose
  | .error _ => 0

variable {verbose : Int32} {name value : CText}

/-- Verbosities are between −1 and 9. -/
def Admissible (verbose : Int32) : Prop := -1 ≤ verbose.toInt ∧ verbose.toInt ≤ 9

theorem admissible_ofInt {v : Int} (h : ¬(v > 9 ∨ v < -1)) : Admissible (Int32.ofInt v) := by
  have hRange : -1 ≤ v ∧ v ≤ 9 := by omega
  have hValue : (Int32.ofInt v).toInt = v :=
    Int32.toInt_ofInt_of_le (by omega) (by omega)
  unfold Admissible
  rw [hValue]
  exact hRange

/-- The verbosity that a text asks for, if it is one. -/
def verbosityOf (value : List CChar) : Option Int32 :=
  match strtol value with
  | none => none
  | some v => if v > 9 ∨ v < -1 then none else some (Int32.ofInt v)

theorem verbosityOf_admissible {value : List CChar} (h : verbosityOf value = some verbose) :
    Admissible verbose := by
  unfold verbosityOf at h
  cases hParsed : strtol value with
  | none =>
      rw [hParsed] at h
      cases h
  | some v =>
      rw [hParsed] at h
      by_cases hRange : v > 9 ∨ v < -1
      · simp only [if_pos hRange] at h
        cases h
      · simp only [if_neg hRange] at h
        cases h
        exact admissible_ofInt hRange

theorem setOption_verbose (verbose : Int32) (hName : name.chars = lit "verbose")
    (value : CText) :
    setOption verbose name (some value) = match verbosityOf value.chars with
      | some accepted => (.success, accepted)
      | none => (.invalidValue, verbose) := by
  unfold setOption verbosityOf
  simp only [hName, ↓reduceIte]
  cases strtol value.chars with
  | none => rfl
  | some v =>
      by_cases hRange : v > 9 ∨ v < -1
      · simp only [if_pos hRange]
      · simp only [if_neg hRange]

theorem setOption_other (verbose : Int32) (hName : name.chars ≠ lit "verbose")
    (value : Option CText) : setOption verbose name value = (.invalidName, verbose) :=
  if_neg hName

/-- A call leaves an admissible value, or the one it found. -/
theorem setOption_step (verbose : Int32) (name : CText) (value : Option CText) :
    Admissible (setOption verbose name value).2 ∨ (setOption verbose name value).2 = verbose := by
  by_cases hName : name.chars = lit "verbose"
  · cases value with
    | none =>
        right
        rw [setOption, if_pos hName]
    | some value =>
        rw [setOption_verbose verbose hName]
        cases hParsed : verbosityOf value.chars with
        | some accepted => exact .inl (verbosityOf_admissible hParsed)
        | none => exact .inr rfl
  · rw [setOption_other verbose hName]
    exact .inr rfl

/-- Whatever options are set, the verbosity stays admissible. -/
theorem verbosity_admissible (calls : List (CText × Option CText)) :
    Admissible (verbosity calls) := by
  have hRun : ∀ verbose, Admissible verbose → Admissible
      (calls.foldl (fun verbose call => (setOption verbose call.1 call.2).2) verbose) := by
    induction calls with
    | nil => exact fun _ h => h
    | cons call rest ih =>
        intro verbose h
        rw [List.foldl_cons]
        apply ih
        rcases setOption_step verbose call.1 call.2 with hAdmissible | hSame
        · exact hAdmissible
        · rw [hSame]
          exact h
  exact hRun 0 ⟨by decide, by decide⟩

theorem invalidValue_rejected : SetOptionResult.invalidValue.toInt32 ≠ 0 ∧
    rejectionCode SetOptionResult.invalidValue.toInt32 = .invalidOptionValue :=
  ⟨by decide, rfl⟩

theorem invalidName_rejected : SetOptionResult.invalidName.toInt32 ≠ 0 ∧
    rejectionCode SetOptionResult.invalidName.toInt32 = .invalidOptionName :=
  ⟨by decide, rfl⟩

/-- The loader takes a call for what the option asks for. -/
theorem setOption_assigns {option : List CChar} (hOption : Assigns option name value)
    (verbose : Int32) :
    (∀ accepted, optionVerbosity option = .ok accepted →
      setOption verbose name (some value) = (.success, accepted)) ∧
    ∀ code, optionVerbosity option = .error code →
      (setOption verbose name (some value)).1.toInt32 ≠ 0 ∧
        rejectionCode (setOption verbose name (some value)).1.toInt32 = code := by
  have hAsks : optionVerbosity option = if name.chars = lit "verbose" then
      (match verbosityOf value.chars with
      | some accepted => .ok accepted
      | none => .error .invalidOptionValue) else .error .invalidOptionName := by
    unfold optionVerbosity verbosityOf
    rw [← hOption.name, ← hOption.value]
    cases strtol value.chars with
    | none => rfl
    | some v =>
        by_cases hRange : v > 9 ∨ v < -1
        · simp only [if_pos hRange]
        · simp only [if_neg hRange]
  rw [hAsks]
  by_cases hName : name.chars = lit "verbose"
  · rw [if_pos hName, setOption_verbose verbose hName]
    cases verbosityOf value.chars with
    | some accepted =>
        exact ⟨fun other hOther => by cases hOther; rfl, fun _ hCode => by cases hCode⟩
    | none =>
        refine ⟨fun _ hAccepted => (by cases hAccepted), fun code hCode => ?_⟩
        cases hCode
        exact invalidValue_rejected
  · rw [if_neg hName, setOption_other verbose hName]
    refine ⟨fun _ hAccepted => (by cases hAccepted), fun code hCode => ?_⟩
    cases hCode
    exact invalidName_rejected

/-- The calls that the loader made, as the VM saw them. -/
def received (calls : List (CText × CText × Int32)) : List (CText × Option CText) :=
  calls.map fun call => (call.1, some call.2.1)

/-- The calls are answered as the example VM does. -/
def AnsweredByExample (calls : List (CText × CText × Int32)) : Prop :=
  ∀ call ∈ calls, call.2.2 = (setOption 0 call.1 (some call.2.1)).1.toInt32

theorem applied_ok {options : List (List CChar)} {calls : List (CText × CText × Int32)}
    (hApplied : Applied options calls) (hAnswers : AnsweredByExample calls) {final : Int32}
    (h : optionsVerbosity options verbose = .ok final) :
    (∀ call ∈ calls, call.2.2 = 0) ∧
      (received calls).foldl (fun verbose call => (setOption verbose call.1 call.2).2) verbose =
        final := by
  induction hApplied generalizing verbose with
  | done => exact ⟨fun _ hCall => (by cases hCall), Except.ok.inj h⟩
  | @accepted option rest name value calls hOption hRest ih =>
      obtain ⟨next, hNext, hFinal⟩ := (bind_eq_ok_iff _ _ _).mp h
      obtain ⟨hZero, hFold⟩ := ih (fun call hCall => hAnswers call (List.mem_cons_of_mem _ hCall))
        hFinal
      refine ⟨List.forall_mem_cons.mpr ⟨rfl, hZero⟩, ?_⟩
      have hStep : setOption verbose name (some value) = (.success, next) :=
        (setOption_assigns hOption verbose).1 next hNext
      change (received calls).foldl _ (setOption verbose name (some value)).2 = final
      rw [hStep]
      exact hFold
  | @rejected option rest name value answer hOption hAnswer =>
      obtain ⟨next, hNext, _⟩ := (bind_eq_ok_iff _ _ _).mp h
      have hGiven : answer = _ := hAnswers _ (List.mem_singleton_self _)
      rw [(setOption_assigns hOption 0).1 next hNext] at hGiven
      exact absurd hGiven hAnswer

theorem applied_error {options : List (List CChar)} {calls : List (CText × CText × Int32)}
    (hApplied : Applied options calls) (hAnswers : AnsweredByExample calls)
    {code : LoaderErrorCode} (h : optionsVerbosity options verbose = .error code) :
    ∃ before name value answer, calls = before ++ [(name, value, answer)] ∧ answer ≠ 0 ∧
      rejectionCode answer = code := by
  induction hApplied generalizing verbose with
  | done => cases h
  | @accepted option rest name value calls hOption hRest ih =>
      have hGiven : (0 : Int32) = _ := hAnswers _ (List.mem_cons_self ..)
      cases hNext : optionVerbosity option with
      | error other =>
          exact absurd hGiven.symm ((setOption_assigns hOption 0).2 other hNext).1
      | ok next =>
          rw [optionsVerbosity, hNext] at h
          obtain ⟨before, last, given, answer, hCalls, hAnswer, hCode⟩ :=
            ih (fun call hCall => hAnswers call (List.mem_cons_of_mem _ hCall)) h
          exact ⟨(name, value, 0) :: before, last, given, answer, by rw [hCalls]; rfl, hAnswer,
            hCode⟩
  | @rejected option rest name value answer hOption hAnswer =>
      have hGiven : answer = _ := hAnswers _ (List.mem_singleton_self _)
      cases hNext : optionVerbosity option with
      | ok next =>
          rw [(setOption_assigns hOption 0).1 next hNext] at hGiven
          exact absurd hGiven hAnswer
      | error other =>
          rw [optionsVerbosity, hNext] at h
          cases h
          refine ⟨[], name, value, answer, rfl, hAnswer, ?_⟩
          rw [hGiven]
          exact ((setOption_assigns hOption 0).2 _ hNext).2

/-- Configuring a module of the example VM comes to what the options ask for. Either all are
set and the verbosity is the last of them, or the first that is not accepted is reported. -/
theorem exampleVm_configured {env : Env} {config : CText} {world loaded : World} {vm : Vm}
    (hExample : ∀ trace name value,
      env.setOption trace vm name value = (setOption 0 name (some value)).1.toInt32)
    (hSupport : vm.hasSetOption = true) (hShort : config.length < pathMaxLength)
    (hLoad : qrvmcLoadAndCreate env (some (config.before (chr ','))) .null world =
      .ok ((some vm, .null), loaded)) :
    Writes (qrvmcLoadAndConfigure env config) world fun result events _ =>
      (∀ verbose, optionsVerbosity ((config.after (chr ',')).tokens (chr ',')) 0 = .ok verbose →
        result = (some vm, .success) ∧ Admissible verbose ∧
          verbosity (received (events.filterMap Event.optionSet)) = verbose) ∧
      ∀ code, optionsVerbosity ((config.after (chr ',')).tokens (chr ',')) 0 = .error code →
        result = (none, code) ∧ ∃ output, events.filterMap Event.failed = [(code, output)] := by
  obtain ⟨⟨returned, ec⟩, events, final, hRun, hTrace, hRest⟩ :=
    loadAndConfigure_outcome env config world
  obtain ⟨hReturned, hOutcome, hAnswers, hApplied, _⟩ := hRest vm loaded hShort hLoad
  have hGiven : AnsweredByExample (events.filterMap Event.optionSet) := by
    intro call hCall
    obtain ⟨event, hEvent, hCalled⟩ := List.mem_filterMap.mp hCall
    cases event with
    | setOption other name value answer =>
        cases hCalled
        obtain ⟨before, after, hEvents⟩ := List.append_of_mem hEvent
        rw [(hAnswers before other name value answer after hEvents).2, hExample]
    | _ => cases hCalled
  refine ⟨(returned, ec), events, final, hRun, hTrace, fun verbose hVerbose => ?_,
    fun code hCode => ?_⟩
  · obtain ⟨hZero, hFold⟩ := applied_ok (hApplied hSupport) hGiven hVerbose
    have hSuccess : ec = .success := hOutcome.of_accepted hSupport hZero
    refine ⟨?_, hFold ▸ verbosity_admissible _, hFold⟩
    subst hSuccess
    rw [if_pos rfl] at hReturned
    exact Prod.ext hReturned rfl
  · obtain ⟨before, name, value, answer, hCalls, hAnswer, hSame⟩ :=
      applied_error (hApplied hSupport) hGiven hCode
    obtain ⟨hRejected, hFailed⟩ : ec = rejectionCode answer ∧ _ :=
      hOutcome.of_rejected hAnswer hCalls
    have hEc : ec = code := hRejected.trans hSame
    have hFailure : ec ≠ .success := by
      rw [hRejected]
      unfold rejectionCode
      split <;> decide
    subst hEc
    rw [if_neg hFailure] at hReturned
    exact ⟨Prod.ext hReturned rfl, _, hFailed⟩

/-- An environment in which every module opens and has the example VM. -/
def exampleEnv : Env :=
  { Env.obliging ⟨0, qrvmcAbiVersion, text "example_vm", true⟩ with
    setOption := fun _ _ name value => (setOption 0 name (some value)).1.toInt32 }

theorem exampleVm_configured_last :
    ∃ vm events final,
      qrvmcLoadAndConfigure exampleEnv (text "m.so,verbose=9,verbose=0x2") .null {} =
        .ok ((some vm, .null), final) ∧ final.trace = events ∧
      verbosity (received (events.filterMap Event.optionSet)) = 2 := by
  have hLoads (errorCode : ErrorCodePtr) (world : World) (filename : CText) :
      qrvmcLoadAndCreate exampleEnv (some filename) errorCode world =
        qrvmcLoadAndCreate (.obliging ⟨0, qrvmcAbiVersion, text "example_vm", true⟩)
          (some filename) errorCode world := by
    rfl
  obtain ⟨loaded, hLoad⟩ := @obliging_loadAndCreate ⟨0, qrvmcAbiVersion, text "example_vm", true⟩
    rfl ((text "m.so,verbose=9,verbose=0x2").before (chr ',')) (by decide) (by decide) .null {}
  obtain ⟨result, events, final, hRun, hTrace, hConfigured, _⟩ :=
    exampleVm_configured (fun _ _ _ => rfl) rfl (by decide) ((hLoads _ _ _).trans hLoad)
  obtain ⟨hResult, _, hVerbosity⟩ := hConfigured 2 (by decide)
  refine ⟨⟨0, qrvmcAbiVersion, text "example_vm", true⟩, events, final, ?_, hTrace, hVerbosity⟩
  rw [hRun, hResult]
  rfl

end Qrvmc.ExampleVm

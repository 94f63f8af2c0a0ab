import Qrvmc.Loader.Reporting
import Qrvmc.Tooling.Command

/-! How the tool ends, for all arguments and whatever modules it is given. It tells why a
VM is not loaded, and leaves no VM behind that it has loaded. -/
namespace Qrvmc.Tooling
open Memory Semantics Loader

variable {State : Type}

/-- The line that names the configuration. -/
def configLine (config : CText) : List CChar := lit "Config: " ++ config.chars ++ lit "\n"

/-- The first line of the version, if there is a VM. -/
def vmVersionLine (machine : Machine State) (options : Options) : Option Vm → List CChar
  | some vm => vm.name.chars ++ lit " " ++ machine.version vm ++ lit " (" ++
      (options.vmConfig.map Text.chars).getD [] ++ lit ")\n"
  | none => []

def versionText (machine : Machine State) (options : Options) (argv : List (List CChar))
    (vm : Option Vm) : List CChar :=
  vmVersionLine machine options vm ++ lit "QRVMC " ++ machine.projectVersion ++
    (match argv with
    | program :: _ => lit " (" ++ program ++ lit ")"
    | [] => []) ++ lit "\n"

/-- The run command with the bytes that the arguments spell. -/
def runOn (machine : Machine State) (options : Options) (vm : Vm) (code input : List CChar) :=
  run (machine.execute vm) machine.clock options.rev options.gas (decodeDigits code)
    (decodeDigits input) options.create options.bench machine.start

/-- What a VM is used for, with the text that is written. -/
inductive Uses (machine : Machine State) (options : Options) (argv : List (List CChar)) :
    Option Vm → Except ToolException Int → List CChar → Prop where
  | version {vm : Option Vm} (hFlag : options.versionFlag = true) :
      Uses machine options argv vm (.ok 0) (versionText machine options argv vm)
  | idle {vm : Option Vm} (hFlag : options.versionFlag = false) (hRun : options.runCmd = false) :
      Uses machine options argv vm (.ok 0) []
  | required (hFlag : options.versionFlag = false) (hRun : options.runCmd = true)
      (hConfig : options.vmConfig = none) :
      Uses machine options argv none (.error (.required (lit "--vm"))) []
  | thrown {vm : Option Vm} {config : CText} {str : List CChar}
      (hFlag : options.versionFlag = false) (hRun : options.runCmd = true)
      (hConfig : options.vmConfig = some config)
      (hArgument : str = options.codeArg ∨ str = options.inputArg)
      (hText : ∀ t, ¬Spells (argumentText machine.files str) t) :
      Uses machine options argv vm (.error (.load (loadException str))) (configLine config)
  | ran {vm : Vm} {config : CText} {code input : List CChar} {exitCode : Int}
      {final : BenchWorld (MockedHost × State)} (hFlag : options.versionFlag = false)
      (hRun : options.runCmd = true) (hConfig : options.vmConfig = some config)
      (hCode : Spells (argumentText machine.files options.codeArg) code)
      (hInput : Spells (argumentText machine.files options.inputArg) input)
      (hEnds : runOn machine options vm code input = .ok (exitCode, final)) :
      Uses machine options argv (some vm) (.ok exitCode) (configLine config ++ final.out)

/-- The fault is one of the run command on the VM. -/
def RunFaults (machine : Machine State) (options : Options) (fault : ProgramFault) : Prop :=
  ∃ vm code input cause, Spells (argumentText machine.files options.codeArg) code ∧
    Spells (argumentText machine.files options.inputArg) input ∧
    runOn machine options vm code input = .error cause ∧ fault = .bench cause

variable {machine : Machine State} {options : Options} {argv : List (List CChar)}
  {console : Console}

theorem loader_run {Value : Type} {program : Loader Value} {value : Value} {world : World}
    (h : program console.world = .ok (value, world)) :
    Program.loader program console = .ok (value, { console with world }) := by
  unfold Program.loader
  rw [h]

/-- Using a VM reads some of its fields, and writes to the output only. -/
structure UsesOn (machine : Machine State) (options : Options) (argv : List (List CChar))
    (vm : Option Vm) (console : Console) (outcome : Except ToolException Int) (final : Console) :
    Prop where
  uses : ∃ out, Uses machine options argv vm outcome out ∧ final.out = console.out ++ out
  err : final.err = console.err
  reads : ∃ vms : List Vm, (∀ other ∈ vms, vm = some other) ∧
    final.world = { console.world with trace := console.world.trace ++ vms.map .readVm }

theorem printVersion_run (vm : Option Vm) (console : Console) :
    ∃ final, printVersion machine options argv vm console = .ok ((), final) ∧
      final.out = console.out ++ versionText machine options argv vm ∧ final.err = console.err ∧
      ∃ vms : List Vm, (∀ other ∈ vms, vm = some other) ∧
        final.world = { console.world with trace := console.world.trace ++ vms.map .readVm } := by
  cases vm with
  | none =>
      cases argv with
      | nil => exact ⟨_, rfl, by simp [versionText, vmVersionLine], rfl, [], by simp, by simp⟩
      | cons program rest =>
          exact ⟨_, rfl, by simp [versionText, vmVersionLine], rfl, [], by simp, by simp⟩
  | some vm =>
      cases argv with
      | nil =>
          exact ⟨_, rfl, by simp [versionText, vmVersionLine], rfl, [vm, vm], by simp, by simp⟩
      | cons program rest =>
          exact ⟨_, rfl, by simp [versionText, vmVersionLine], rfl, [vm, vm], by simp, by simp⟩

/-- A run reads the method of the VM, and adds its text to the output. -/
theorem runVm_ok {vm : Vm} {code input : List UInt8} {exitCode : Int}
    {final : BenchWorld (MockedHost × State)}
    (h : run (machine.execute vm) machine.clock options.rev options.gas code input options.create
      options.bench machine.start = .ok (exitCode, final)) :
    runVm machine options (some vm) code input console = .ok (exitCode,
      { console with world := console.world.log (.readVm vm), out := console.out ++ final.out }) := by
  have hRead : Program.loader (readVm vm machine.execute) console =
      .ok (machine.execute vm, { console with world := console.world.log (.readVm vm) }) := rfl
  unfold runVm
  simp only
  rw [Returns.run_bind hRead, h]
  rfl

theorem runVm_error {vm : Vm} {code input : List UInt8} {cause : BenchFault}
    (h : run (machine.execute vm) machine.clock options.rev options.gas code input options.create
      options.bench machine.start = .error cause) :
    runVm machine options (some vm) code input console = .error (.bench cause) := by
  have hRead : Program.loader (readVm vm machine.execute) console =
      .ok (machine.execute vm, { console with world := console.world.log (.readVm vm) }) := rfl
  unfold runVm
  simp only
  rw [Returns.run_bind hRead, h]
  rfl

/-- The arguments of the run command are decoded one after the other. -/
theorem runCommand_run {config : CText} {vm : Vm} (hFlag : options.versionFlag = false)
    (hRun : options.runCmd = true) (hConfig : options.vmConfig = some config)
    (console : Console) :
    (∃ fault, runCommand machine options (some vm) console = .error fault ∧
      RunFaults machine options fault) ∨
    ∃ outcome final, runCommand machine options (some vm) console = .ok (outcome, final) ∧
      UsesOn machine options argv (some vm) console outcome final := by
  have hThrown {str : List CChar} (hArgument : str = options.codeArg ∨ str = options.inputArg)
      (hScan : (scanText (argumentText machine.files str)).2 = false) :
      ∀ t, ¬Spells (argumentText machine.files str) t := by
    intro t hSpells
    rw [scanText_of_spells hSpells] at hScan
    cases hScan
  have hQuiet (outcome : Except ToolException Int) (text : List CChar)
      (hUses : Uses machine options argv (some vm) outcome text) :
      UsesOn machine options argv (some vm) console outcome
        { console with out := console.out ++ text } :=
    ⟨⟨text, hUses, rfl⟩, rfl, [], by simp, by simp⟩
  unfold runCommand
  simp only [hConfig, loadFromHex_eq]
  cases hScan : (scanText (argumentText machine.files options.codeArg)).2 with
  | false =>
      exact .inr ⟨_, _, rfl, hQuiet _ _ (.thrown hFlag hRun hConfig (.inl rfl)
        (hThrown (.inl rfl) hScan))⟩
  | true =>
      cases hInputScan : (scanText (argumentText machine.files options.inputArg)).2 with
      | false =>
          exact .inr ⟨_, _, rfl, hQuiet _ _ (.thrown hFlag hRun hConfig (.inr rfl)
            (hThrown (.inr rfl) hInputScan))⟩
      | true =>
          obtain ⟨code, hCode⟩ := (scanText_snd_iff _).mp hScan
          obtain ⟨input, hInput⟩ := (scanText_snd_iff _).mp hInputScan
          rw [scanText_of_spells hCode, scanText_of_spells hInput]
          cases hEnds : runOn machine options vm code input with
          | error cause =>
              left
              refine ⟨.bench cause, ?_, vm, code, input, cause, hCode, hInput, hEnds, rfl⟩
              change (runVm machine options (some vm) (decodeDigits code) (decodeDigits input) >>=
                fun exitCode => (pure (.ok exitCode) : Program (Except ToolException Int)))
                { console with out := console.out ++ configLine config } = _
              exact Returns.run_bind_error (runVm_error hEnds)
          | ok outcome =>
              obtain ⟨exitCode, final⟩ := outcome
              right
              have hUses : Uses machine options argv (some vm) (.ok exitCode)
                  (configLine config ++ final.out) :=
                .ran hFlag hRun hConfig hCode hInput hEnds
              refine ⟨.ok exitCode, { console with
                world := console.world.log (.readVm vm)
                out := console.out ++ configLine config ++ final.out }, ?_, ⟨_, hUses, ?_⟩, rfl,
                [vm], ?_, ?_⟩
              · change (runVm machine options (some vm) (decodeDigits code) (decodeDigits input) >>=
                  fun exitCode => (pure (.ok exitCode) : Program (Except ToolException Int)))
                  { console with out := console.out ++ configLine config } = _
                rw [Returns.run_bind (runVm_ok hEnds)]
                rfl
              · exact List.append_assoc ..
              · simp
              · rfl

/-- Using the VM that the configuration names, or none where there is no configuration. -/
theorem useVm_run {vm : Option Vm} (hVm : options.vmConfig.isSome = vm.isSome)
    (console : Console) :
    (∃ fault, useVm machine options argv vm console = .error fault ∧
      RunFaults machine options fault) ∨
    ∃ outcome final, useVm machine options argv vm console = .ok (outcome, final) ∧
      UsesOn machine options argv vm console outcome final := by
  unfold useVm
  cases hFlag : options.versionFlag with
  | true =>
      obtain ⟨final, hPrint, hOut, hErr, hReads⟩ := @printVersion_run _ machine options argv vm console
      rw [if_pos rfl]
      exact .inr ⟨.ok 0, final, Returns.run_bind hPrint, ⟨_, .version hFlag, hOut⟩, hErr, hReads⟩
  | false =>
      rw [if_neg (by decide)]
      cases hRun : options.runCmd with
      | false =>
          rw [if_neg (by decide)]
          exact .inr ⟨.ok 0, console, rfl, ⟨[], .idle hFlag hRun, (List.append_nil _).symm⟩, rfl, [],
            by simp, by simp⟩
      | true =>
          rw [if_pos rfl]
          cases hConfig : options.vmConfig with
          | some config =>
              cases vm with
              | none =>
                  rw [hConfig] at hVm
                  cases hVm
              | some vm => exact runCommand_run hFlag hRun hConfig console
          | none =>
              cases vm with
              | some vm =>
                  rw [hConfig] at hVm
                  cases hVm
              | none =>
                  have hRequired : runCommand machine options none console =
                      .ok (.error (.required (lit "--vm")), console) := by
                    unfold runCommand
                    rw [hConfig]
                    rfl
                  exact .inr ⟨_, console, hRequired, ⟨[], .required hFlag hRun hConfig,
                    (List.append_nil _).symm⟩, rfl, [], by simp, by simp⟩

/-- The reads of a living VM. -/
theorem reads_path {vm : Vm} {vms : List Vm} (h : ∀ other ∈ vms, some vm = some other) :
    Path VmStep (.live vm) (vms.map .readVm) (.live vm) := by
  induction vms with
  | nil => exact .nil _
  | cons head rest ih =>
      cases h head (List.mem_cons_self ..)
      exact .cons .read (ih fun other hOther => h other (List.mem_cons_of_mem _ hOther))

theorem reads_silent (vms : List Vm) :
    (vms.map Event.readVm).filterMap Event.failed = [] ∧
      (vms.map Event.readVm).filterMap Event.created = [] := by
  induction vms with
  | nil => exact ⟨rfl, rfl⟩
  | cons head rest ih =>
      rw [List.map_cons, List.filterMap_cons_none rfl, List.filterMap_cons_none rfl]
      exact ih

/-- Each VM that is created is destroyed once, and not used after that. -/
structure Released (events : List Event) : Prop where
  destroyed : events.filterMap Event.destroyed = events.filterMap Event.created
  unused : ∀ before vm after, events = before ++ .destroy vm :: after →
    ∀ event ∈ after, event.used = none

theorem released_of_path {events : List Event} {stop : VmState}
    (hLife : Path VmStep .absent events stop) (hAlive : stop.alive = none) : Released events := by
  have hCreated : events.filterMap Event.created = stop.created := created_of_path hLife
  have hDestroyed : events.filterMap Event.destroyed = stop.destroyed := destroyed_of_path hLife
  refine ⟨?_, (vm_life hLife).2.2.1⟩
  rw [hCreated, hDestroyed]
  cases stop with
  | live vm => cases hAlive
  | absent => rfl
  | gone vm => rfl

/-- A VM that was loaded and is gone, or none where there was none to load. -/
structure Owned (vm : Option Vm) (events : List Event) : Prop where
  released : Released events
  created : events.filterMap Event.created = vm.toList
  silent : events.filterMap Event.failed = []

/-- A VM that was not loaded, with the failure and what can be heard of it. -/
structure Unloaded (events : List Event) (ec : LoaderErrorCode) (error : Option CText) : Prop where
  released : Released events
  failure : ec ≠ .success
  tells : Tells ec events error

/-- How the block that owns the VM ends. -/
inductive BlockEnds (machine : Machine State) (options : Options) (argv : List (List CChar))
    (events : List Event) : Except ToolException Int → List CChar → List CChar → Prop where
  | unloaded {ec : LoaderErrorCode} {error : Option CText} (h : Unloaded events ec error) :
      BlockEnds machine options argv events (.ok (loaderErrorNumber ec)) [] (loadingError error ec)
  | used {vm : Option Vm} {outcome : Except ToolException Int} {out : List CChar}
      (hOwned : Owned vm events) (hUses : Uses machine options argv vm outcome out) :
      BlockEnds machine options argv events outcome out []

theorem withVm_run (console : Console) :
    (∃ fault, withVm machine options argv console = .error fault ∧
      RunFaults machine options fault) ∨
    ∃ outcome final events out err, withVm machine options argv console = .ok (outcome, final) ∧
      final.world.trace = console.world.trace ++ events ∧ final.out = console.out ++ out ∧
      final.err = console.err ++ err ∧ BlockEnds machine options argv events outcome out err := by
  unfold withVm
  cases hConfig : options.vmConfig with
  | none =>
      rcases @useVm_run _ machine options argv none (by rw [hConfig]; rfl) console with hFault | hRun
      · exact .inl hFault
      · obtain ⟨outcome, final, hRun, ⟨out, hUses, hOut⟩, hErr, vms, hReads, hWorld⟩ := hRun
        cases vms with
        | cons head rest => cases hReads head (List.mem_cons_self ..)
        | nil =>
            exact .inr ⟨outcome, final, [], out, [], hRun, by rw [hWorld]; rfl, hOut,
              by rw [hErr, List.append_nil], .used ⟨released_of_path (.nil VmState.absent) rfl, rfl, rfl⟩
                hUses⟩
  | some config =>
      obtain ⟨⟨vm, ec⟩, events, loaded, hLoad, hTrace, hEnds⟩ :=
        qrvmcLoadAndConfigure_writes machine.env config console.world
      obtain ⟨stop, hLife, hAlive⟩ := hEnds.life
      have hLoader : Program.loader
          (qrvmcLoadAndConfigure machine.env config (.variable .unspecifiedError)) console =
          .ok ((vm, .variable ec), { console with world := loaded }) :=
        loader_run (hLoad _)
      simp only
      rw [Returns.run_bind hLoader]
      simp only [errorCodeOf]
      by_cases hSuccess : ec = .success
      · simp only [hSuccess, ne_eq, not_true_eq_false, ↓reduceIte]
        cases vm with
        | none => cases hEnds.returns.mpr hSuccess
        | some vm =>
            have hSilent := (hEnds.reports.success hSuccess).1
            have hCreated := ((vm_life hLife).2.1 vm hAlive).1
            rcases @useVm_run _ machine options argv (some vm) (by rw [hConfig]; rfl)
              { console with world := loaded } with hFault | hRun
            · obtain ⟨fault, hFault, hCause⟩ := hFault
              exact .inl ⟨fault, Returns.run_bind_error hFault, hCause⟩
            · obtain ⟨outcome, final, hRun, ⟨out, hUses, hOut⟩, hErr, vms, hReads, hWorld⟩ := hRun
              obtain ⟨hReadSilent, hReadCreated⟩ := reads_silent vms
              right
              refine ⟨outcome, { final with world := final.world.log (.destroy vm) },
                events ++ (vms.map .readVm ++ [.destroy vm]), out, [], ?_, ?_, hOut, ?_,
                .used ⟨released_of_path (?_ : Path VmStep _ _ (.gone vm)) rfl, ?_, ?_⟩ hUses⟩
              · rw [Returns.run_bind hRun]
                rfl
              · rw [hWorld]
                change loaded.trace ++ vms.map .readVm ++ [.destroy vm] = _
                rw [hTrace, List.append_assoc, List.append_assoc]
              · rw [hErr, List.append_nil]
              · cases stop with
                | live other =>
                    cases hAlive
                    exact hLife.append ((reads_path hReads).append (.cons .destroy (.nil _)))
                | _ => cases hAlive
              · rw [List.filterMap_append, List.filterMap_append, hCreated, hReadCreated]
                rfl
              · rw [List.filterMap_append, List.filterMap_append, hSilent, hReadSilent]
                rfl
      · simp only [ne_eq, hSuccess, not_false_eq_true, ↓reduceIte]
        cases vm with
        | some vm => exact absurd (hEnds.returns.mp rfl) hSuccess
        | none =>
            have hSettled := qrvmcLoadAndConfigure_rule machine.env config
              (.variable .unspecifiedError) console.world rfl
            rw [hLoad] at hSettled
            obtain ⟨error, hError, hTells⟩ := qrvmcLastErrorMsg_tells hEnds.reports hTrace hSettled
            have hReport : reportLoading ec { console with world := loaded } = .ok ((), { console with
                world := { loaded with lastErrorMsg := .null }
                err := console.err ++ loadingError error ec }) := by
              have hMessage : Program.loader qrvmcLastErrorMsg { console with world := loaded } =
                  .ok (error, { console with world := { loaded with lastErrorMsg := .null } }) :=
                loader_run hError
              unfold reportLoading
              rw [Returns.run_bind hMessage]
              rfl
            right
            refine ⟨_, _, events, [], loadingError error ec, Returns.run_bind hReport, hTrace,
              (List.append_nil _).symm, rfl, .unloaded ⟨released_of_path hLife hAlive, hSuccess, hTells⟩⟩

/-- The handlers of the exceptions, with the exit code and the text about the error. -/
def handled (machine : Machine State) : ToolException → Int × List CChar
  | .required name => machine.appExit name
  | .load exception => (-1, lit "Error: " ++ exception.what ++ lit "\n")

/-- How the tool ends: the exit code with what is written to the two streams. -/
inductive ToolEnds (machine : Machine State) (options : Options) (argv : List (List CChar))
    (events : List Event) : Int → List CChar → List CChar → Prop where
  | unloaded {ec : LoaderErrorCode} {error : Option CText} (h : Unloaded events ec error) :
      ToolEnds machine options argv events (loaderErrorNumber ec) [] (loadingError error ec)
  | returned {vm : Option Vm} {exitCode : Int} {out : List CChar} (hOwned : Owned vm events)
      (hUses : Uses machine options argv vm (.ok exitCode) out) :
      ToolEnds machine options argv events exitCode out []
  | threw {vm : Option Vm} {exception : ToolException} {out : List CChar}
      (hOwned : Owned vm events)
      (hUses : Uses machine options argv vm (.error exception) out) :
      ToolEnds machine options argv events (handled machine exception).1 out
        (handled machine exception).2

/-- The tool, for all options, modules, files and states of the loader. Only the run command
may be undefined. A VM that is not loaded is reported with the code and the message of the
failure, and each VM that is loaded is destroyed. -/
theorem toolMain_ends (machine : Machine State) (options : Options) (argv : List (List CChar))
    (console : Console) :
    (∃ fault, toolMain machine options argv console = .error fault ∧
      RunFaults machine options fault) ∨
    ∃ exitCode final events out err,
      toolMain machine options argv console = .ok (exitCode, final) ∧
      final.world.trace = console.world.trace ++ events ∧ final.out = console.out ++ out ∧
      final.err = console.err ++ err ∧ ToolEnds machine options argv events exitCode out err := by
  unfold toolMain
  rcases @withVm_run _ machine options argv console with hFault | hRun
  · obtain ⟨fault, hFault, hCause⟩ := hFault
    exact .inl ⟨fault, Returns.run_bind_error hFault, hCause⟩
  · obtain ⟨outcome, final, events, out, err, hRun, hTrace, hOut, hErr, hEnds⟩ := hRun
    right
    rw [Returns.run_bind hRun]
    cases hEnds with
    | unloaded h =>
        exact ⟨_, final, events, [], _, rfl, hTrace, hOut, hErr, .unloaded h⟩
    | used hOwned hUses =>
        cases outcome with
        | ok exitCode =>
            exact ⟨exitCode, final, events, out, [], rfl, hTrace, hOut, hErr,
              .returned hOwned hUses⟩
        | error exception =>
            rw [List.append_nil] at hErr
            cases exception with
            | required name =>
                exact ⟨_, _, events, out, _, rfl, hTrace, hOut, congrArg (· ++ _) hErr,
                  .threw hOwned hUses⟩
            | load exception =>
                exact ⟨_, _, events, out, _, rfl, hTrace, hOut, congrArg (· ++ _) hErr,
                  .threw hOwned hUses⟩

end Qrvmc.Tooling

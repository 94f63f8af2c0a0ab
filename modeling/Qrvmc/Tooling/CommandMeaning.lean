import Qrvmc.ExampleVm.SetOption
import Qrvmc.Tooling.CommandRuns
import Qrvmc.Tooling.ExampleCommand

/-! From the command line to the meaning of the code. Where the modules are the example VM,
the tool prints what the code means that its arguments spell, or why there is no VM. What
the VM writes itself depends on the verbosity that the configuration sets. -/
namespace Qrvmc.Tooling
open Memory ExampleVm Semantics

/-- A text spells its bytes in one way. -/
theorem spells_unique {s first second : List CChar} (hFirst : Spells s first)
    (hSecond : Spells s second) : decodeDigits first = decodeDigits second :=
  congrArg Prod.fst ((scanText_of_spells hFirst).symm.trans (scanText_of_spells hSecond))

variable {platform : Platform} {machine : Machine Unit} {options : Options}
  {argv : List (List CChar)} {config : CText} {code input : List CChar} {report : Report}

/-- What a run of the command prints with a verbosity. -/
def commandText (options : Options) (verbose : Int32) (report : Report) : List CChar :=
  header options.rev options.gas options.create ++
    (if options.create then startText verbose else []) ++ report.textWith (startText verbose)

/-- Each run of the command on a module reports what the code means. -/
theorem runOn_meaning {verbose : Int32} (vm : Vm)
    (hExecute : machine.execute vm = platform.exampleVm verbose)
    (hBench : options.bench = false) (hLength : (decodeDigits code).length < 2 ^ 64)
    (hGas : 0 ≤ options.gas)
    (h : platform.command options.gas (decodeDigits code) (decodeDigits input) options.create =
      .ok report) :
    ∃ world, runOn machine options vm code input = .ok (report.exitCode, world) ∧
      world.out = commandText options verbose report := by
  obtain ⟨world, hRun, hOut⟩ := @run_meaning platform options.rev options.gas (decodeDigits code)
    (decodeDigits input) options.create report verbose machine.clock hLength hGas h
  refine ⟨world, ?_, hOut⟩
  unfold runOn
  rw [hExecute, hBench]
  exact hRun

/-- The tool with the run command, on modules that are the example VM with the verbosity of
the configuration. -/
theorem toolMain_meaning (console : Console) (hConfig : options.vmConfig = some config)
    (hFlag : options.versionFlag = false) (hCommand : options.runCmd = true)
    (hBench : options.bench = false) (hGas : 0 ≤ options.gas)
    (hExecute : ∀ vm, machine.execute vm = platform.exampleVm (configuredVerbosity config))
    (hCode : Spells (argumentText machine.files options.codeArg) code)
    (hInput : Spells (argumentText machine.files options.inputArg) input)
    (hLength : (decodeDigits code).length < 2 ^ 64)
    (h : platform.command options.gas (decodeDigits code) (decodeDigits input) options.create =
      .ok report) :
    ∃ exitCode final events, toolMain machine options argv console = .ok (exitCode, final) ∧
      final.world.trace = console.world.trace ++ events ∧ Released events ∧
      ((∃ ec error, Unloaded events ec error ∧ exitCode = loaderErrorNumber ec ∧
          final.out = console.out ∧ final.err = console.err ++ loadingError error ec) ∨
        exitCode = report.exitCode ∧ final.err = console.err ∧
          final.out = console.out ++ (configLine config ++
            commandText options (configuredVerbosity config) report)) := by
  have hRuns (vm : Vm) {first second : List CChar}
      (hFirst : Spells (argumentText machine.files options.codeArg) first)
      (hSecond : Spells (argumentText machine.files options.inputArg) second) :
      ∃ world, runOn machine options vm first second = .ok (report.exitCode, world) ∧
        world.out = commandText options (configuredVerbosity config) report := by
    unfold runOn
    rw [spells_unique hFirst hCode, spells_unique hSecond hInput]
    exact runOn_meaning vm (hExecute vm) hBench hLength hGas h
  rcases toolMain_ends machine options argv console with hFault | hEnds
  · obtain ⟨_, _, vm, first, second, cause, hFirst, hSecond, hError, _⟩ := hFault
    obtain ⟨world, hRun, _⟩ := hRuns vm hFirst hSecond
    rw [hRun] at hError
    cases hError
  · obtain ⟨exitCode, final, events, out, err, hRun, hTrace, hOut, hErr, hEnds⟩ := hEnds
    refine ⟨exitCode, final, events, hRun, hTrace, ?_⟩
    cases hEnds with
    | @unloaded ec error hUnloaded =>
        rw [List.append_nil] at hOut
        exact ⟨hUnloaded.released, .inl ⟨ec, error, hUnloaded, rfl, hOut, hErr⟩⟩
    | returned hOwned hUses =>
        rw [List.append_nil] at hErr
        refine ⟨hOwned.released, .inr ?_⟩
        cases hUses with
        | version hVersion => cases hFlag.symm.trans hVersion
        | idle _ hIdle => cases hCommand.symm.trans hIdle
        | @ran vm _ _ _ _ _ _ _ hSame hFirst hSecond hEnds =>
            cases hConfig.symm.trans hSame
            obtain ⟨world, hRun, hText⟩ := hRuns vm hFirst hSecond
            cases hRun.symm.trans hEnds
            exact ⟨rfl, hErr, by rw [hOut, hText]⟩
    | threw hOwned hUses =>
        cases hUses with
        | required _ _ hNone => cases hConfig.symm.trans hNone
        | thrown _ _ _ hArgument hText =>
            rcases hArgument with rfl | rfl
            · exact absurd hCode (hText code)
            · exact absurd hInput (hText input)

/-- A machine on which every module is the example VM with verbosity one, and every file has
the same code. -/
def testMachine : Machine Unit where
  env := .obliging ⟨0, qrvmcAbiVersion, text "example", true⟩
  files _ := lit "60 bb 60 00 52\n60 01 60 1f f3\n"
  version _ := lit "0.1.0"
  execute _ := testPlatform.exampleVm 1
  start := ()
  clock := coarseClock
  projectVersion := lit "10.1.1"
  appExit name := (106, name ++ lit " is required\n")

/-- The code in the file returns one byte. -/
theorem toolMain_meaning_file :
    ∃ exitCode final, toolMain testMachine
        { vmConfig := some (text "vm.so,verbose=1"), runCmd := true, codeArg := lit "@code",
          gas := 200 } []
        { world := {} } = .ok (exitCode, final) ∧
      ((∃ ec error, exitCode = loaderErrorNumber ec ∧ final.err = loadingError error ec) ∨
        exitCode = 0 ∧ final.out = lit "Config: vm.so,verbose=1\n" ++ (header 1 200 false ++
          (Report.executed .success 6 (some [0xbb])).textWith (lit "execution started\n\n"))) := by
  let options : Options :=
    { vmConfig := some (text "vm.so,verbose=1"), runCmd := true, codeArg := lit "@code",
      gas := 200 }
  have hContents : argumentText testMachine.files options.codeArg =
      lit "60bb6000526001601ff3" := by
    rfl
  have hCode : Spells (argumentText testMachine.files options.codeArg)
      (lit "60bb6000526001601ff3") := by
    rw [hContents, spells_plain (by decide)]
    exact ⟨rfl, (scan_snd_iff _).mp rfl⟩
  have hInput : Spells (argumentText testMachine.files options.inputArg) [] :=
    (spells_plain (by decide)).mpr ⟨rfl, (scan_snd_iff _).mp rfl⟩
  have hBytes : decodeDigits (lit "60bb6000526001601ff3") =
      [0x60, 0xbb, 0x60, 0x00, 0x52, 0x60, 0x01, 0x60, 0x1f, 0xf3] := by
    decide
  have hMeaning : testPlatform.command 200
      [0x60, 0xbb, 0x60, 0x00, 0x52, 0x60, 0x01, 0x60, 0x1f, 0xf3] [] false =
      .ok (.executed .success 6 (some [0xbb])) := by
    rfl
  have hCommand : testPlatform.command options.gas (decodeDigits (lit "60bb6000526001601ff3"))
      (decodeDigits []) options.create = .ok (.executed .success 6 (some [0xbb])) := by
    rw [hBytes]
    exact hMeaning
  have hVerbose : configuredVerbosity (text "vm.so,verbose=1") = 1 := by
    decide
  obtain ⟨exitCode, final, events, hRun, _, _, hEnds⟩ := @toolMain_meaning testPlatform testMachine
    options [] (text "vm.so,verbose=1") _ _ _ { world := {} } rfl rfl rfl rfl (by decide)
    (fun _ => by rw [hVerbose]; rfl) hCode hInput (by decide) hCommand
  refine ⟨exitCode, final, hRun, ?_⟩
  rcases hEnds with ⟨ec, error, _, hExit, _, hErr⟩ | ⟨hExit, _, hOut⟩
  · exact .inl ⟨ec, error, hExit, hErr⟩
  · have hText : commandText options 1 (.executed .success 6 (some [0xbb])) =
        header 1 200 false ++
          (Report.executed .success 6 (some [0xbb])).textWith (lit "execution started\n\n") :=
      congrArg (· ++ _) (List.append_nil _)
    rw [hVerbose, hText] at hOut
    exact .inr ⟨hExit, hOut⟩

end Qrvmc.Tooling

import Qrvmc.Semantics.Component
import Qrvmc.Bytes.Endian
import Qrvmc.Types.Words
import Qrvmc.Types.Values
import Qrvmc.Types.Integers
import Qrvmc.Hex.Decode
import Qrvmc.Hex.Digits
import Qrvmc.Hex.Loop
import Qrvmc.Hex.Acceptors
import Qrvmc.Hex.FixedSize
import Qrvmc.Hex.Encode
import Qrvmc.Containers.Standard
import Qrvmc.Host.StorageStatus
import Qrvmc.Host.MockedHost
import Qrvmc.Host.Steps
import Qrvmc.Host.Slots
import Qrvmc.Host.StorageGas
import Qrvmc.Host.AccountWarmth
import Qrvmc.Loader.Format
import Qrvmc.Semantics.Returns
import Qrvmc.Loader.Loader
import Qrvmc.Loader.Buffers
import Qrvmc.Loader.CreateFnName
import Qrvmc.Loader.VmLife
import Qrvmc.Loader.Outcomes
import Qrvmc.Loader.LoadAndCreate
import Qrvmc.Loader.Options
import Qrvmc.Loader.Configure
import Qrvmc.Loader.LastError
import Qrvmc.Ownership.Heap
import Qrvmc.Wrapper.Result
import Qrvmc.Wrapper.ResultOwnership
import Qrvmc.Wrapper.Vm
import Qrvmc.Wrapper.VmOwnership
import Qrvmc.Wrapper.Interface
import Qrvmc.Wrapper.Transparency
import Qrvmc.ExampleVm.Execute
import Qrvmc.ExampleVm.Metrics
import Qrvmc.Semantics.Triple
import Qrvmc.ExampleVm.StackDiscipline
import Qrvmc.Loader.CreateFnRule
import Qrvmc.Loader.Agreement
import Qrvmc.Loader.Reporting
import Qrvmc.Loader.OptionErrors
import Qrvmc.Host.AccessTracking
import Qrvmc.Host.CallRecording
import Qrvmc.Bytes.Folding
import Qrvmc.Types.Hash
import Qrvmc.Containers.Iteration
import Qrvmc.Hex.FilterIterator
import Qrvmc.Hex.SpacedHex
import Qrvmc.Containers.Chunks
import Qrvmc.Host.CodeReading
import Qrvmc.PrecompilesVm.Precompiles
import Qrvmc.ExampleVm.Effects
import Qrvmc.ExampleVm.Runs
import Qrvmc.ExampleVm.ResultContract
import Qrvmc.ExampleVm.Dispatch
import Qrvmc.ExampleVm.MemoryBounds
import Qrvmc.ExampleVm.CodeBounds
import Qrvmc.ExampleVm.Isolation
import Qrvmc.Wrapper.MockedCall
import Qrvmc.VmTester.CliParser
import Qrvmc.VmTester.CommandLine
import Qrvmc.Semantics.Run
import Qrvmc.VmTester.PrecompileTest
import Qrvmc.VmTester.PrecompileSoundness
import Qrvmc.Tooling.Bench
import Qrvmc.Tooling.BenchArithmetic
import Qrvmc.Tooling.Run
import Qrvmc.Tooling.Report
import Qrvmc.Tooling.ExampleCommand
import Qrvmc.Tooling.Arguments
import Qrvmc.Tooling.Command
import Qrvmc.Tooling.CommandRuns
import Qrvmc.Tooling.CommandMeaning
import Qrvmc.Hex.WriteBounds
import Qrvmc.Loader.NameBuffer
import Qrvmc.Semantics.Simulation
import Qrvmc.ExampleVm.RunMeaning
import Qrvmc.ExampleVm.GasUse
import Qrvmc.ExampleVm.CodeBlocks
import Qrvmc.ExampleVm.HostAgreement
import Qrvmc.ExampleVm.HostChoice
import Qrvmc.ExampleVm.NestedResults
import Qrvmc.ExampleVm.SetOption
import Qrvmc.ExampleVm.ProgramLogic
import Qrvmc.ExampleVm.Counters
import Qrvmc.ExampleVm.ReturnedWords
import Qrvmc.Host.ExampleHost
import Qrvmc.Host.HostComparison
import Qrvmc.Semantics.StraightLine

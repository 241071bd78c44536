import Tc8Harness.Autosar.AesCmac
import Tc8Harness.Autosar.CmacInjective
import Tc8Harness.Autosar.Com
import Tc8Harness.Autosar.ComFrame
import Tc8Harness.Autosar.ComRoundTrip
import Tc8Harness.Autosar.ConfiguredOffsets
import Tc8Harness.Autosar.Crc
import Tc8Harness.Autosar.CrcDivision
import Tc8Harness.Autosar.E2e
import Tc8Harness.Autosar.E2eChannel
import Tc8Harness.Autosar.E2eDetection
import Tc8Harness.Autosar.E2eNibble
import Tc8Harness.Autosar.Fips197
import Tc8Harness.Autosar.Nm
import Tc8Harness.Autosar.NmRuns
import Tc8Harness.Autosar.Rfc4493
import Tc8Harness.Capture.FrameSummary
import Tc8Harness.Capture.ReaderAgreement
import Tc8Harness.Capture.RunCapture
import Tc8Harness.Cli.ExpectKeys
import Tc8Harness.Cli.ExpectParser
import Tc8Harness.Cli.NegativeRow
import Tc8Harness.Dissect.Accounting
import Tc8Harness.Dissect.Decoders
import Tc8Harness.Dissect.Dhcpv4Captured
import Tc8Harness.Dissect.Dhcpv4Delivery
import Tc8Harness.Dissect.DiscoverGrading
import Tc8Harness.Dissect.Emitted
import Tc8Harness.Dissect.FrameEnd
import Tc8Harness.Dissect.Framing
import Tc8Harness.Dissect.OptionWalks
import Tc8Harness.Dissect.Padding
import Tc8Harness.Dissect.Pipeline
import Tc8Harness.Dissect.Redelivery
import Tc8Harness.Dissect.SomeIp
import Tc8Harness.Dut.Acquisition
import Tc8Harness.Dut.Backoff
import Tc8Harness.Dut.Dhcpv4Client
import Tc8Harness.Dut.Dhcpv4Decoded
import Tc8Harness.Dut.Dhcpv4Message
import Tc8Harness.Dut.Dhcpv4Reply
import Tc8Harness.Dut.LeaseAnswers
import Tc8Harness.Dut.LeaseCleanup
import Tc8Harness.Dut.LeaseSchedule
import Tc8Harness.Dut.LeaseTerm
import Tc8Harness.Dut.LinklocalAutoconf
import Tc8Harness.Dut.LinklocalClaim
import Tc8Harness.Dut.LinklocalDefence
import Tc8Harness.Dut.LinklocalHistory
import Tc8Harness.Dut.LinklocalProbes
import Tc8Harness.Dut.LinklocalResponder
import Tc8Harness.Dut.OptionReading
import Tc8Harness.Dut.OptionWalkers
import Tc8Harness.Dut.PhaseMachine
import Tc8Harness.Dut.ReplyRoundTrip
import Tc8Harness.DutService.Emission
import Tc8Harness.DutService.PendingRequests
import Tc8Harness.DutService.ResponseCorrelation
import Tc8Harness.DutService.StringField
import Tc8Harness.Inventory.CaseSuite
import Tc8Harness.Inventory.Identity
import Tc8Harness.Inventory.JsonScan
import Tc8Harness.Inventory.Registration
import Tc8Harness.Inventory.RegistryRuns
import Tc8Harness.Inventory.SpecInventory
import Tc8Harness.Lib.BigEndian
import Tc8Harness.Lib.BinaryPoly
import Tc8Harness.Lib.BitFields
import Tc8Harness.Lib.ByteBuffer
import Tc8Harness.Lib.CInteger
import Tc8Harness.Lib.CbcMac
import Tc8Harness.Lib.CheckedAccess
import Tc8Harness.Lib.CrcRegister
import Tc8Harness.Lib.Handles
import Tc8Harness.Lib.Hoare
import Tc8Harness.Lib.Json
import Tc8Harness.Lib.Loops
import Tc8Harness.Lib.Observe
import Tc8Harness.Lib.Occurrence
import Tc8Harness.Lib.OneShot
import Tc8Harness.Lib.OptionArea
import Tc8Harness.Lib.SelfDelimiting
import Tc8Harness.Lib.Sequencing
import Tc8Harness.Lib.StreamFraming
import Tc8Harness.Lib.Tiling
import Tc8Harness.Lib.Tlv
import Tc8Harness.Lib.Trace
import Tc8Harness.Lib.TreeTable
import Tc8Harness.Lib.UnixPath
import Tc8Harness.LwipDut.Arming
import Tc8Harness.LwipDut.IngressAccount
import Tc8Harness.LwipDut.IngressFault
import Tc8Harness.Orchestrator.Artifacts
import Tc8Harness.Orchestrator.CaseToken
import Tc8Harness.Orchestrator.Ledger
import Tc8Harness.Orchestrator.ReadyMarker
import Tc8Harness.Orchestrator.SourceDigest
import Tc8Harness.Orchestrator.Summary
import Tc8Harness.Orchestrator.Unit
import Tc8Harness.Orchestrator.Worker
import Tc8Harness.Runner.Awaiting
import Tc8Harness.Runner.Holding
import Tc8Harness.Runner.Listener
import Tc8Harness.Runner.Queues
import Tc8Harness.Runner.ReactionRuns
import Tc8Harness.Runner.Reactions
import Tc8Harness.Runner.ScheduledStimulus
import Tc8Harness.Runner.StateEntry
import Tc8Harness.Runner.Steps
import Tc8Harness.Runner.TestRunner
import Tc8Harness.Runner.Trace
import Tc8Harness.Runner.TraceJson
import Tc8Harness.Someip.SdBounds
import Tc8Harness.Someip.SdContext
import Tc8Harness.Someip.SdDecode
import Tc8Harness.Someip.Wire
import Tc8Harness.SomeipTp.Isolation
import Tc8Harness.SomeipTp.Reassembler
import Tc8Harness.SomeipTp.Retention
import Tc8Harness.SomeipTp.RoundTrip
import Tc8Harness.SomeipTp.Soundness
import Tc8Harness.SomeipTp.Wire
import Tc8Harness.Stimulus.ChecksumAgreement
import Tc8Harness.Stimulus.Dhcpv4FrameBuilder
import Tc8Harness.Stimulus.FrameBuilder
import Tc8Harness.Stimulus.FrameRoundTrip
import Tc8Harness.Stimulus.MethodResponder
import Tc8Harness.Stimulus.RpcBuilder
import Tc8Harness.Stimulus.SdBuilder
import Tc8Harness.Stimulus.SdRoundTrip
import Tc8Harness.Stimulus.SdSession
import Tc8Harness.Testability.BlockingMode
import Tc8Harness.Testability.BlockingRuns
import Tc8Harness.Testability.Client
import Tc8Harness.Testability.Connect
import Tc8Harness.Testability.ConnectAttempts
import Tc8Harness.Testability.ConnectView
import Tc8Harness.Testability.Forward
import Tc8Harness.Testability.Reactor
import Tc8Harness.Testability.ReactorDispatch
import Tc8Harness.Testability.ReactorLoop
import Tc8Harness.Testability.ReactorTimers
import Tc8Harness.Testability.Requests
import Tc8Harness.Testability.Server
import Tc8Harness.Testability.SocketFrame
import Tc8Harness.Testability.SocketIds
import Tc8Harness.Testability.SocketTable
import Tc8Harness.Testability.UdpForward
import Tc8Harness.Testability.WatchHandles
import Tc8Harness.Testability.WatchRuns
import Tc8Harness.Testability.Watches
import Tc8Harness.Testability.Wire
import Tc8Harness.UpperTester.Capabilities
import Tc8Harness.UpperTester.Client
import Tc8Harness.UpperTester.Dispatch
import Tc8Harness.UpperTester.Extensions
import Tc8Harness.UpperTester.Perform
import Tc8Harness.UpperTester.Protocol
import Tc8Harness.UpperTester.RoundTrip
import Tc8Harness.UpperTester.Server
import Tc8Harness.UpperTester.SocketRuns
import Tc8Harness.UpperTester.SocketSlots
import Tc8Harness.Verdict.Absence
import Tc8Harness.Verdict.Donedata
import Tc8Harness.Verdict.Final
import Tc8Harness.Verdict.Iterations
import Tc8Harness.Verdict.RtoCeiling
import Tc8Harness.Verdict.RunStats
import Tc8Harness.Wire.Checksum

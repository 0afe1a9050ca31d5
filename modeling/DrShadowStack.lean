import DrShadowStack.AcceptedRuns
import DrShadowStack.Client
import DrShadowStack.ClientRun
import DrShadowStack.ClientStart
import DrShadowStack.Common.CString
import DrShadowStack.Common.CommandLine
import DrShadowStack.Common.Decimal
import DrShadowStack.Common.Interleaving
import DrShadowStack.Common.LittleEndian
import DrShadowStack.Common.Matching
import DrShadowStack.Common.Monitor
import DrShadowStack.Common.PartialRun
import DrShadowStack.Common.ProgramOptions
import DrShadowStack.Common.StackDiscipline
import DrShadowStack.Common.Stops
import DrShadowStack.Common.TwoRuns
import DrShadowStack.Constants
import DrShadowStack.DrPrintSym
import DrShadowStack.EndToEnd
import DrShadowStack.ErrorPath
import DrShadowStack.ExecChain
import DrShadowStack.ExternalMode
import DrShadowStack.ExternalSS
import DrShadowStack.ExternalServer
import DrShadowStack.FailedExecve
import DrShadowStack.GroupSetup
import DrShadowStack.InternalSS
import DrShadowStack.LaunchedTarget
import DrShadowStack.Launcher
import DrShadowStack.Logging
import DrShadowStack.Message
import DrShadowStack.ParseArgs
import DrShadowStack.ProtectedProgram
import DrShadowStack.ReadBack
import DrShadowStack.Reporting
import DrShadowStack.RewrittenEntry
import DrShadowStack.SentStream
import DrShadowStack.ServerLoop
import DrShadowStack.ShadowStack
import DrShadowStack.SharedSocket
import DrShadowStack.SharedStack
import DrShadowStack.SocketRuns
import DrShadowStack.SymbolReport
import DrShadowStack.TargetArgs
import DrShadowStack.TempName
import DrShadowStack.Tls
import DrShadowStack.TypedReceive
import DrShadowStack.Utilities
import DrShadowStack.WholeRun
import DrShadowStack.Wire

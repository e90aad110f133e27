import DaemonLink.Connection.Session
import DaemonLink.Frame.Writing
import DaemonLink.Main
import DaemonLink.Stream.Paced
import DaemonLink.Proofs.FrameReading
import DaemonLink.Proofs.DescriptorTable
import DaemonLink.Proofs.FrameRoundTrip
import DaemonLink.Proofs.SessionSteps
import DaemonLink.Proofs.Custody
import DaemonLink.Proofs.SessionCustody
import DaemonLink.Proofs.Ownership
import DaemonLink.Proofs.FailureIsFinal
import DaemonLink.Proofs.TornFrames
import DaemonLink.Proofs.CommandLineGrammar
import DaemonLink.Proofs.LogThreads
import DaemonLink.Proofs.Deliveries
import DaemonLink.Proofs.WireToExit
import DaemonLink.Proofs.Belongings
import DaemonLink.Proofs.LogLevels
import DaemonLink.Proofs.FilesAside
import DaemonLink.Proofs.LogUnseen
import DaemonLink.Proofs.LogTurns
import DaemonLink.Proofs.FileWalks
import DaemonLink.Proofs.WithoutDaemon
import DaemonLink.Proofs.LogRotation
import DaemonLink.Proofs.LogDirectory
import DaemonLink.Proofs.LogTail
import DaemonLink.Proofs.TimeoutNumeral
import DaemonLink.Proofs.CommandLineErrors
import DaemonLink.Proofs.UsedArguments
import DaemonLink.Proofs.BufferGrowth
import DaemonLink.Proofs.SocketPaths
import DaemonLink.Proofs.RotationFaults
import DaemonLink.Proofs.LogOutputs
import DaemonLink.Proofs.Verbosity
import DaemonLink.Proofs.FailureReports
import DaemonLink.Proofs.LevelScale
import DaemonLink.Proofs.Previews
import DaemonLink.Proofs.LateDeliveries
import DaemonLink.Proofs.ExactReads
import DaemonLink.Proofs.HeaderOrder
import DaemonLink.Proofs.LogBeside

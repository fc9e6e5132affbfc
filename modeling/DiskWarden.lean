import DiskWarden.Main
import DiskWarden.Proofs.Acquisition.EmptySecret
import DiskWarden.Proofs.Acquisition.Secrecy
import DiskWarden.Proofs.Acquisition.Fallback
import DiskWarden.Proofs.Terminal.Prompts
import DiskWarden.Proofs.Registry.Progress
import DiskWarden.Proofs.Dispatch.Indicators
import DiskWarden.Proofs.Dispatch.Separation
import DiskWarden.Proofs.Dispatch.Postponed
import DiskWarden.Proofs.Dispatch.Results
import DiskWarden.Proofs.Connection.Replies
import DiskWarden.Proofs.Bus.Shutdown
import DiskWarden.Proofs.Bus.Reboots
import DiskWarden.Proofs.Wire.RoundTrip
import DiskWarden.Proofs.Replay.Agreement
import DiskWarden.Proofs.Replay.Accounts
import DiskWarden.Proofs.Config.RoundTrip
import DiskWarden.Proofs.Config.Leftover
import DiskWarden.Proofs.Config.SocketPath
import DiskWarden.Proofs.Outcome.Meanings
import DiskWarden.Proofs.Config.Validation
import DiskWarden.Proofs.Helper.Unsealing
import DiskWarden.Proofs.Terminal.Questions
import DiskWarden.Proofs.Registry.Soundness
import DiskWarden.Proofs.CommandLine.Endings

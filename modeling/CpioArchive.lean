import CpioArchive.Main
import CpioArchive.Newc.Reader
import CpioArchive.Proofs.Accounting
import CpioArchive.Proofs.Batches
import CpioArchive.Proofs.Boundaries
import CpioArchive.Proofs.Buffering
import CpioArchive.Proofs.ByteSizes
import CpioArchive.Proofs.Canonical
import CpioArchive.Proofs.CleanRuns
import CpioArchive.Proofs.Counting
import CpioArchive.Proofs.Damage
import CpioArchive.Proofs.DiagnosticLines
import CpioArchive.Proofs.Diagnostics
import CpioArchive.Proofs.EntryResults
import CpioArchive.Proofs.Events
import CpioArchive.Proofs.ExitStatus
import CpioArchive.Proofs.FullDisk
import CpioArchive.Proofs.Grammar
import CpioArchive.Proofs.Reproducibility
import CpioArchive.Proofs.Requests
import CpioArchive.Proofs.RoundTrip
import CpioArchive.Proofs.Rounds
import CpioArchive.Proofs.ShownSizes
import CpioArchive.Proofs.SkipPolicy
import CpioArchive.Proofs.StandardOutput

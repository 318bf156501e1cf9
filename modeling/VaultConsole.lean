import VaultConsole.Launch
import VaultConsole.Main
import VaultConsole.Proofs.Interpreter.HandingOver
import VaultConsole.Proofs.Interpreter.Narration
import VaultConsole.Proofs.Interpreter.Waiting
import VaultConsole.Proofs.QuickBar.Agreement
import VaultConsole.Proofs.Store.Atomicity
import VaultConsole.Proofs.Store.Integrity
import VaultConsole.Proofs.Store.Loading
import VaultConsole.Proofs.Store.Refinement
import VaultConsole.Proofs.TypedSecrets
import VaultConsole.Proofs.Session.Lax
import VaultConsole.Proofs.Interpreter.Wide
import VaultConsole.Proofs.Interpreter.Growth
import VaultConsole.Proofs.Interpreter.Output
import VaultConsole.Proofs.Time.Wall
import VaultConsole.Proofs.Showing
import VaultConsole.Proofs.Profile.Loading
import VaultConsole.Proofs.Terminal.Taking
import VaultConsole.Proofs.Terminal.InStep
import VaultConsole.Proofs.Line.Written
import VaultConsole.Proofs.Session.Unveiling
import VaultConsole.Proofs.Interpreter.Reporting
import VaultConsole.Proofs.Launch.Creation
import VaultConsole.Proofs.Session.Search
import VaultConsole.Proofs.Making
import VaultConsole.Proofs.Amending
import VaultConsole.Proofs.Launch.Failing
import VaultConsole.Proofs.History
import VaultConsole.Proofs.Session.Recent
import VaultConsole.Proofs.QuickBar.Feedback
import VaultConsole.Proofs.Event.Calls
import VaultConsole.Proofs.OldEntries
import VaultConsole.Proofs.Layout
import VaultConsole.Proofs.RunLog
import VaultConsole.Proofs.Profile.Relative
import VaultConsole.Proofs.Interpreter.Completing
import VaultConsole.Proofs.Record.Rereading

import Payout.Assembly.Running
import Payout.Command.Run
import Payout.Disk.Stock
import Payout.Main
import Payout.Rehearsal.Journal
import Payout.Rehearsal.Machine
import Payout.Rehearsal.Schedule
import Payout.Settings.Loader
import Payout.Proofs.Ledger.Handles
import Payout.Proofs.Settlement.Authority
import Payout.Proofs.Settlement.Batches
import Payout.Proofs.Settlement.Compensation
import Payout.Proofs.Settlement.Departure
import Payout.Proofs.Settlement.Sessions
import Payout.Proofs.Ledger.Transitions
import Payout.Proofs.Ledger.Refinement
import Payout.Proofs.Settlement.Custody
import Payout.Proofs.Settlement.Independence
import Payout.Proofs.Settlement.Tenures
import Payout.Proofs.Settlement.Setbacks
import Payout.Proofs.Assembly.Wiring
import Payout.Proofs.Program.Layers
import Payout.Proofs.Assembly.Signing
import Payout.Proofs.Assembly.Acceptance
import Payout.Proofs.Settlement.Units
import Payout.Proofs.Assembly.Recognition
import Payout.Proofs.Schedule.Pace
import Payout.Proofs.Settings.Substitution
import Payout.Proofs.Ledger.Atomicity
import Payout.Proofs.Program.Worlds
import Payout.Proofs.Settlement.Insistence
import Payout.Proofs.Settlement.Submission
import Payout.Proofs.Settlement.Release
import Payout.Proofs.Settlement.Precision
import Payout.Proofs.Ledger.Frame
import Payout.Proofs.Chain.Fee

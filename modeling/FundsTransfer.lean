import FundsTransfer.Json.RowDecoder
import FundsTransfer.Main
import FundsTransfer.Proofs.Backends.Agreement
import FundsTransfer.Proofs.Cli.Options
import FundsTransfer.Proofs.Database.Insertion
import FundsTransfer.Proofs.Json.Amount
import FundsTransfer.Proofs.Json.Rows
import FundsTransfer.Proofs.Locking.FirstUse
import FundsTransfer.Proofs.Memory.Refusing
import FundsTransfer.Proofs.Money.Amount
import FundsTransfer.Proofs.Money.Rate
import FundsTransfer.Proofs.Rehearsal.Audits
import FundsTransfer.Proofs.Rehearsal.Firing
import FundsTransfer.Proofs.Rehearsal.Seeding
import FundsTransfer.Proofs.Sharing.Balances
import FundsTransfer.Proofs.Sharing.Closing
import FundsTransfer.Proofs.Sharing.Once
import FundsTransfer.Proofs.Sharing.Rehearsed
import FundsTransfer.Proofs.Transfer.Auditing
import FundsTransfer.Proofs.Transfer.Balanced
import FundsTransfer.Proofs.Transfer.Conservation
import FundsTransfer.Proofs.Transfer.Fault
import FundsTransfer.Proofs.Transfer.Naming
import FundsTransfer.Proofs.Transfer.Retrying
import FundsTransfer.Proofs.Work.Advice
import FundsTransfer.Proofs.Work.Lifecycle
import FundsTransfer.Rehearsal.Schedule

import AttributeExchange.Main
import AttributeExchange.Proofs.CommandLine.Outcome
import AttributeExchange.Proofs.CommandLine.Reencoding
import AttributeExchange.Proofs.Inquirer.Accounting
import AttributeExchange.Proofs.Inquirer.Answers
import AttributeExchange.Proofs.Inquirer.Bounded
import AttributeExchange.Proofs.Inquirer.Deadlines
import AttributeExchange.Proofs.Inquirer.Drafts
import AttributeExchange.Proofs.Inquirer.Failed
import AttributeExchange.Proofs.Inquirer.Isolation
import AttributeExchange.Proofs.Inquirer.Neighbours
import AttributeExchange.Proofs.Inquirer.Receipt
import AttributeExchange.Proofs.Inquirer.SharedCounter
import AttributeExchange.Proofs.Inquirer.Subscribed
import AttributeExchange.Proofs.Inquirer.Verbosity
import AttributeExchange.Proofs.KeyList.Reading
import AttributeExchange.Proofs.Message.Topic
import AttributeExchange.Proofs.Pending.Ledger
import AttributeExchange.Proofs.Session.Runs
import AttributeExchange.Proofs.Settings.RoundTrip
import AttributeExchange.Proofs.Switchboard.Office
import AttributeExchange.Proofs.Switchboard.Turns

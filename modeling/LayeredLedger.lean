import LayeredLedger.Config.Settings
import LayeredLedger.Json.Text
import LayeredLedger.Movement
import LayeredLedger.Proofs.Batches
import LayeredLedger.Proofs.BridgeIndex
import LayeredLedger.Proofs.CurrencyNumbers
import LayeredLedger.Proofs.DailyReset
import LayeredLedger.Proofs.ExactBalance
import LayeredLedger.Proofs.GroupReversal
import LayeredLedger.Proofs.MarkReadings
import LayeredLedger.Proofs.Merging
import LayeredLedger.Proofs.Metadata
import LayeredLedger.Proofs.NamedAccounts
import LayeredLedger.Proofs.Pairing
import LayeredLedger.Proofs.Payments
import LayeredLedger.Proofs.PersistedTags
import LayeredLedger.Proofs.Refusals
import LayeredLedger.Proofs.RegisteredLayers
import LayeredLedger.Proofs.RepeatedTags
import LayeredLedger.Proofs.ReversalInverse
import LayeredLedger.Proofs.Spending
import LayeredLedger.Proofs.Splitting
import LayeredLedger.Proofs.SumsInRange
import LayeredLedger.Proofs.TrialBalance
import LayeredLedger.Service.Complete
import LayeredLedger.Service.Create
import LayeredLedger.Service.Reset
import LayeredLedger.Service.Reverse

import ExchangeDesk.Desk.Fault
import ExchangeDesk.Main
import ExchangeDesk.Proofs.Amendments
import ExchangeDesk.Proofs.Bureau
import ExchangeDesk.Proofs.CodeGrammar
import ExchangeDesk.Proofs.Confidential
import ExchangeDesk.Proofs.Defaults
import ExchangeDesk.Proofs.DisjointCorrections
import ExchangeDesk.Proofs.Equivalence
import ExchangeDesk.Proofs.ExchangeNumbers
import ExchangeDesk.Proofs.Formats
import ExchangeDesk.Proofs.HomeCurrency
import ExchangeDesk.Proofs.InUse
import ExchangeDesk.Proofs.Integrity
import ExchangeDesk.Proofs.Listings
import ExchangeDesk.Proofs.LiteralReads
import ExchangeDesk.Proofs.Loading
import ExchangeDesk.Proofs.NetTotals
import ExchangeDesk.Proofs.OptionOrder
import ExchangeDesk.Proofs.Payable
import ExchangeDesk.Proofs.RateAdministration
import ExchangeDesk.Proofs.RateHistory
import ExchangeDesk.Proofs.Relevance
import ExchangeDesk.Proofs.SmallerAmounts
import ExchangeDesk.Proofs.Spelling
import ExchangeDesk.Proofs.Stranded
import ExchangeDesk.Proofs.Worth

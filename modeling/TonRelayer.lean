import TonRelayer.TransitionRuns
import TonRelayer.HighLoadQueryIds
import TonRelayer.QueryIdSequences
import TonRelayer.QueryIdExhaustion
import TonRelayer.QueryIdFields
import TonRelayer.WalletLocks
import TonRelayer.ConcurrentSenders
import TonRelayer.TraceSubscribers
import TonRelayer.TracePaging
import TonRelayer.SharedPolls
import TonRelayer.RetryBudget
import TonRelayer.PostedMessages
import TonRelayer.ExactReaders
import TonRelayer.LogFormats
import TonRelayer.GasCalculator
import TonRelayer.GasFormula
import TonRelayer.RelayerExecute
import TonRelayer.RefundBroadcast
import TonRelayer.MessageDecoders
import TonRelayer.Interactions
import TonRelayer.Broadcasts
import TonRelayer.WalletRelease
import TonRelayer.SendRetries
import TonRelayer.RefundRuns
import TonRelayer.SharedServices
import TonRelayer.WalletRules
import TonRelayer.SharedWallets
import TonRelayer.ItsAddresses
import TonRelayer.EventLinking
import TonRelayer.RejectedMessages
import TonRelayer.TraceStructure
import TonRelayer.EventIds
import TonRelayer.MessageCosts
import TonRelayer.JsonCleaning
import TonRelayer.QueueItems
import TonRelayer.RefundCosts
import TonRelayer.RenderedIds
import TonRelayer.TransferData
import TonRelayer.NullifiedMessages
import TonRelayer.JettonLogs
import TonRelayer.CellChains
import TonRelayer.ParserPanics
import TonRelayer.EventSources
import TonRelayer.RepeatedParses
import TonRelayer.Ingestion
import TonRelayer.JettonConversion

import RifRelayServer.UnitRoundTrip
import RifRelayServer.ConfirmationPass
import RifRelayServer.LogSplitting
import RifRelayServer.StoredNonces
import RifRelayServer.StakeHandling
import RifRelayServer.Readiness
import RifRelayServer.PricedReadiness
import RifRelayServer.RegistrationsInFlight
import RifRelayServer.Spelling
import RifRelayServer.QuoteAcceptance
import RifRelayServer.Confirmations
import RifRelayServer.NonceBounds
import RifRelayServer.Refills
import RifRelayServer.EventDelivery
import RifRelayServer.StakeView
import RifRelayServer.AlertedRounds
import RifRelayServer.DeferredUnlocks
import RifRelayServer.StoreContents
import RifRelayServer.ScanCoverage
import RifRelayServer.Resending
import RifRelayServer.UnderpricedBoosts
import RifRelayServer.MinedBoosts
import RifRelayServer.StuckBoosts
import RifRelayServer.FailedSends
import RifRelayServer.WithdrawalFunds
import RifRelayServer.PaymentBounds
import RifRelayServer.LogRanges
import RifRelayServer.LatestEvents
import RifRelayServer.ConfigAmounts
import RifRelayServer.RefillBounds
import RifRelayServer.Estimates
import RifRelayServer.TransferFees
import RifRelayServer.TrustedVerifiers
import RifRelayServer.Expiration
import RifRelayServer.RelayedTransactions
import RifRelayServer.Progress
import RifRelayServer.Durability
import RifRelayServer.Recovery
import RifRelayServer.RegistrationGate
import RifRelayServer.RoundRefinement

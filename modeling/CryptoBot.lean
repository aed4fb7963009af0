import CryptoBot.Math.Machine
import CryptoBot.Math.Ledger
import CryptoBot.Math.LastWrite
import CryptoBot.Math.Journal
import CryptoBot.Math.Ladder
import CryptoBot.Math.Containers
import CryptoBot.Common.Types
import CryptoBot.Common.TradingPairs
import CryptoBot.Common.MemoryPool
import CryptoBot.MarketData.Update
import CryptoBot.Math.BestTracking
import CryptoBot.Book.Side
import CryptoBot.Book.MarketOrderBook
import CryptoBot.Math.PartialMap
import CryptoBot.Book.Component
import CryptoBot.Book.Refinement
import CryptoBot.Book.Representation
import CryptoBot.Book.TopOfBook
import CryptoBot.Book.Batches
import CryptoBot.Book.Depth
import CryptoBot.Strategy.CrossArbitrage
import CryptoBot.Math.Mirror
import CryptoBot.Book.SharedBook
import CryptoBot.Book.SharedRepresentation
import CryptoBot.Book.Clearing
import CryptoBot.Book.Dereference
import CryptoBot.Strategy.PriceFeed
import CryptoBot.Orders.ClientResponse
import CryptoBot.Orders.BinanceParser
import CryptoBot.Orders.OrderManager
import CryptoBot.Orders.Calls
import CryptoBot.Strategy.Legs
import CryptoBot.Orders.Protocol
import CryptoBot.Orders.Quiescence
import CryptoBot.Math.Rounding
import CryptoBot.Assets.Wallet
import CryptoBot.Assets.Cancellation
import CryptoBot.Assets.Ledger
import CryptoBot.Assets.UpdateErrors
import CryptoBot.Math.Doubles
import CryptoBot.Positions.PositionInfo
import CryptoBot.Positions.MachineIntegers
import CryptoBot.Positions.PositionKeeper
import CryptoBot.Positions.DoublePrecision
import CryptoBot.Bus.ResponseLifetime
import CryptoBot.Network.ConnectionPool
import CryptoBot.Network.ResponseRouting
import CryptoBot.Network.SessionLifetime
import CryptoBot.Network.WssWriter
import CryptoBot.Network.BookEventGetter
import CryptoBot.Sync.Generator
import CryptoBot.Sync.Binance
import CryptoBot.Sync.Bybit
import CryptoBot.Book.Publication
import CryptoBot.Book.Replication
import CryptoBot.Math.UnorderedMap
import CryptoBot.Arbitrage.Cycle
import CryptoBot.Arbitrage.Trade
import CryptoBot.Arbitrage.Strategy
import CryptoBot.Arbitrage.Dictionary
import CryptoBot.Arbitrage.TwoLegged
import CryptoBot.Arbitrage.Reporting
import CryptoBot.Arbitrage.Precision
import CryptoBot.Arbitrage.Profit
import CryptoBot.Math.Joined
import CryptoBot.Math.Decimal
import CryptoBot.Requests.ArgsQuery
import CryptoBot.Requests.CancelOrder
import CryptoBot.Requests.Fills
import CryptoBot.Requests.LimitOrder
import CryptoBot.Common.Conversions
import CryptoBot.Math.Json
import CryptoBot.MarketData.BinanceDepth
import CryptoBot.MarketData.BybitMessages
import CryptoBot.Strategy.Backtesting
import CryptoBot.MarketData.Scale
import CryptoBot.Requests.ArgsBody
import CryptoBot.Book.WeightedPrice
import CryptoBot.Positions.Routing
import CryptoBot.Common.Tickers
import CryptoBot.Math.Traversal
import CryptoBot.Bus.Stopping
import CryptoBot.Math.CoarseMap
import CryptoBot.Requests.Endpoints
import CryptoBot.Math.CyclicSearch
import CryptoBot.Common.MemPool
import CryptoBot.Common.PoolRelease
import CryptoBot.Common.LockFreePool
import CryptoBot.Bus.EventLifetime
import CryptoBot.Math.Mailbox
import CryptoBot.Bus.Wiring
import CryptoBot.Book.Signals
import CryptoBot.Bus.Pipeline
import CryptoBot.Network.CallbackManager
import CryptoBot.Network.CallbackInvocation
import CryptoBot.Math.Epochs
import CryptoBot.Sync.Tracking
import CryptoBot.Sync.Recovery
import CryptoBot.Math.BulkQueue
import CryptoBot.Orders.Gateway
import CryptoBot.Book.Service
import CryptoBot.Common.Configuration
import CryptoBot.Sync.Stream
import CryptoBot.Arbitrage.TradesMessage

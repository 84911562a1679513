import CrossChain.Lib.Bytes
import CrossChain.Lib.Checked
import CrossChain.Lib.Run
import CrossChain.Lib.CappedFee
import CrossChain.Lib.Charging
import CrossChain.Lib.TokenBucket
import CrossChain.Lib.DecayWindow
import CrossChain.Lib.Climb
import CrossChain.Lib.Reservoir
import CrossChain.Lib.ValueNet
import CrossChain.Lib.Exchange
import CrossChain.Solana.Basic
import CrossChain.Solana.Token
import CrossChain.Solana.Externals
import CrossChain.Solana.RateLimiter
import CrossChain.Solana.Refills
import CrossChain.Solana.MsgCodec
import CrossChain.Solana.State
import CrossChain.Solana.Amounts
import CrossChain.Solana.Node
import CrossChain.Solana.Send
import CrossChain.Solana.LzReceive
import CrossChain.Solana.Admin
import CrossChain.Solana.Quote
import CrossChain.Solana.LzReceiveTypes
import CrossChain.Solana.Program
import CrossChain.Solana.Decoding
import CrossChain.Solana.Fees
import CrossChain.Solana.Receipts
import CrossChain.Solana.Agreement
import CrossChain.Solana.Escrow
import CrossChain.Solana.Revenue
import CrossChain.Solana.Limits
import CrossChain.Solana.Windows
import CrossChain.Solana.Peers
import CrossChain.Solana.Space
import CrossChain.Solana.Governance
import CrossChain.Solana.Configuration
import CrossChain.Solana.Mesh
import CrossChain.Solana.Custody
import CrossChain.Solana.Delivery
import CrossChain.Solana.Ordering
import CrossChain.Solana.Sending
import CrossChain.Solana.Persistence
import CrossChain.Evm.Library
import CrossChain.Evm.Wrapper
import CrossChain.Evm.RateLimits
import CrossChain.Evm.Flow
import CrossChain.Evm.Directions
import CrossChain.Evm.Mesh
import CrossChain.Network
import CrossChain.Transfers
import CrossChain.Solvency

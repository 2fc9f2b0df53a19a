import Creditcoin.Backing
import Creditcoin.Base64
import Creditcoin.Batching
import Creditcoin.Cleaning
import Creditcoin.Closing
import Creditcoin.Completion
import Creditcoin.Consent
import Creditcoin.Cursors
import Creditcoin.Determinism
import Creditcoin.Fees
import Creditcoin.Interest
import Creditcoin.Issuance
import Creditcoin.Keys
import Creditcoin.Kinds
import Creditcoin.Layers
import Creditcoin.Lib.Accesses
import Creditcoin.Lib.Closure
import Creditcoin.Lib.Extension
import Creditcoin.Lib.Layers
import Creditcoin.Lib.Trie
import Creditcoin.Literals
import Creditcoin.Locks
import Creditcoin.Matching
import Creditcoin.Offers
import Creditcoin.Owed
import Creditcoin.Payloads
import Creditcoin.Payments
import Creditcoin.Payouts
import Creditcoin.PoW.Contests
import Creditcoin.PoW.Cycles
import Creditcoin.PoW.Digests
import Creditcoin.PoW.Publication
import Creditcoin.PoW.Retargeting
import Creditcoin.Prefixes
import Creditcoin.Protection
import Creditcoin.Registrations
import Creditcoin.Rejections
import Creditcoin.Returns
import Creditcoin.Setbacks
import Creditcoin.Spending
import Creditcoin.Supply
import Creditcoin.Ticks
import Creditcoin.Transition
import Creditcoin.Unsettled
import Creditcoin.Validator.Arrivals
import Creditcoin.Validator.ChainController
import Creditcoin.Validator.ChainRuns
import Creditcoin.Validator.Completer
import Creditcoin.Validator.Deliveries
import Creditcoin.Validator.ForkDiff
import Creditcoin.Validator.Peers
import Creditcoin.Validator.Predecessors
import Creditcoin.Validator.Reorganisation
import Creditcoin.Validator.RewardAgreement
import Creditcoin.Validator.RewardBlocks
import Creditcoin.Validator.Rules
import Creditcoin.Validator.Scheduling
import Creditcoin.Validator.Serialisation
import Creditcoin.Validator.StateList
import Creditcoin.Validator.Validation
import Creditcoin.Visits
import Creditcoin.ZeroTransfers

import Beldex.Pow.VerifyBlockPow
import Beldex.Token.Circulation
import Beldex.Coinbase.Template
import Beldex.Outputs.SpentKeys
import Beldex.Voting.CheckpointAssembly
import Beldex.Pos.CommitReveal
import Beldex.Pos.RoundOrder
import Beldex.Chain.Rejection
import Beldex.Chain.SwitchFailure
import Beldex.Chain.ForkChoice
import Beldex.Chain.AltSoundness
import Beldex.Chain.Finality
import Beldex.Wire.RoundTrip
import Beldex.NodeList.QuorumChoice
import Beldex.Staking.Payouts
import Beldex.Staking.Portions
import Beldex.Swarm.Growth
import Beldex.Swarm.Ties
import Beldex.NodeList.QuorumRewind
import Beldex.NodeList.OtherQuorums
import Beldex.Voting.NodeTests
import Beldex.NodeList.UnlockReplay
import Beldex.NodeList.Credit
import Beldex.NodeList.Rotation
import Beldex.Token.TwoPhase
import Beldex.Pow.Difficulty
import Beldex.Coinbase.TemplateCache
import Beldex.Pool.FlashRollback
import Beldex.Common.Random
import Beldex.Common.Pruning
import Beldex.Token.Identifier
import Beldex.Bns.Name
import Beldex.Bns.Startup
import Beldex.Mnemonics.ElectrumWords

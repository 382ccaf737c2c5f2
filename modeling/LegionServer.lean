import LegionServer.Guarantees.PoolBookkeeping
import LegionServer.Guarantees.LootRewards
import LegionServer.Guarantees.GuildBank
import LegionServer.Guarantees.SpellCharges
import LegionServer.Guarantees.CategoryCooldowns
import LegionServer.Guarantees.ChannelOwnership
import LegionServer.Guarantees.GuildMoney
import LegionServer.Guarantees.GuildLeadership
import LegionServer.Guarantees.SubGroupCounters
import LegionServer.Guarantees.PacketRoundTrip
import LegionServer.Guarantees.ReputationCounters
import LegionServer.Guarantees.ReputationRoundTrip
import LegionServer.Guarantees.PhaseBookkeeping
import LegionServer.Guarantees.IncrementalPhasing
import LegionServer.Guarantees.GuidRoundTrip
import LegionServer.Guarantees.HyperlinkGrammar
import LegionServer.Guarantees.UpdateConvergence
import LegionServer.Guarantees.MotionLifecycle
import LegionServer.Guarantees.PointerRemovals
import LegionServer.Guarantees.ChannelNames
import LegionServer.Guarantees.PostedItems
import LegionServer.Guarantees.ConditionLookups
import LegionServer.Guarantees.ImplicitTargetLists
import LegionServer.Guarantees.RespawnAgreement
import LegionServer.Guarantees.InstanceRows
import LegionServer.Guarantees.TradeGoods
import LegionServer.Guarantees.AuctionEnds
import LegionServer.Guarantees.BlackMarketBids
import LegionServer.Guarantees.PacketFraming
import LegionServer.Guarantees.IncrementalSaves
import LegionServer.Guarantees.SavedEncounters
import LegionServer.Guarantees.CalendarStores
import LegionServer.Guarantees.SocketHandshake
import LegionServer.Guarantees.VictimSelection
import LegionServer.Guarantees.RoleAssignments
import LegionServer.Guarantees.SlicedUpdates
import LegionServer.Guarantees.EventMapReset
import LegionServer.Guarantees.EventLifecycle
import LegionServer.Guarantees.RedirectedThreat
import LegionServer.Guarantees.GameEventSchedule
import LegionServer.Guarantees.PoolRelations
import LegionServer.Guarantees.RemovedProposals
import LegionServer.Guarantees.RollWinners
import LegionServer.Guarantees.BitPacking
import LegionServer.Guarantees.BackPatching
import LegionServer.Guarantees.RecordCopies
import LegionServer.Guarantees.StringPools
import LegionServer.Guarantees.LootTurns
import LegionServer.Guarantees.MatchSelection
import LegionServer.Guarantees.PersonalLoot
import LegionServer.Guarantees.ParagonRewards
import LegionServer.Guarantees.MutualVisibility
import LegionServer.Guarantees.ChannelBans
import LegionServer.Guarantees.PackedGuids
import LegionServer.Guarantees.CommandResolution
import LegionServer.Guarantees.EffectivePermissions
import LegionServer.Guarantees.OutgoingPackets
import LegionServer.Guarantees.DailyStreaks
import LegionServer.Guarantees.CancelledSeries
import LegionServer.Guarantees.EventOrder
import LegionServer.Guarantees.RandomResize

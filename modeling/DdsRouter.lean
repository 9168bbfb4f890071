import DdsRouter.Types.Containers
import DdsRouter.Dynamic.AllowedTopicList
import DdsRouter.Dynamic.Reduction
import DdsRouter.Dynamic.Routing
import DdsRouter.Dynamic.Representatives
import DdsRouter.Participant.BaseParticipant
import DdsRouter.Participant.Lifecycle
import DdsRouter.Participant.Runs
import DdsRouter.Configuration.DiscoveryServer
import DdsRouter.Core.ParticipantsDatabase

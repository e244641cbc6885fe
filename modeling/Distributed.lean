import Distributed.Bus.SqlLogOrder
import Distributed.CacheEngine.Convergence
import Distributed.Entities.Recording
import Distributed.Entities.UpcastStability
import Distributed.Graphql.ProjectionDelta.Effects
import Distributed.Graphql.ProjectionDelta.ValidationWork
import Distributed.InMemoryRepo.AttemptFencing
import Distributed.InMemoryRepo.DirectReplay
import Distributed.InMemoryRepo.Handles
import Distributed.InMemoryRepo.ObligationEvidence
import Distributed.InMemoryRepo.OutboxRuns
import Distributed.InMemoryRepo.RepairedInputs
import Distributed.InMemoryRepo.ServiceSteps
import Distributed.InMemoryRepo.StorageKeys
import Distributed.InMemoryRepo.Streams
import Distributed.Lock.LeaseRuns
import Distributed.Mutation.Agreement
import Distributed.Mutation.CacheOnly
import Distributed.Mutation.InputPaths
import Distributed.Projection.KeyDerivations
import Distributed.QueuedRepo.LoadCompletes
import Distributed.ReadModel.RowOrder
import Distributed.Replica.Keys
import Distributed.Table.DependencyOrder

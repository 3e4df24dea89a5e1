import Ecs.Basic
import Ecs.Entity
import Ecs.Storage.Dense
import Ecs.Storage.Shared
import Ecs.World
import Ecs.Scheduler.Register
import Ecs.Scheduler.Tick
import Ecs.Scheduler.Run
import Ecs.Scheduler.Pool
import Ecs.Float64
import Ecs.Observability
import Ecs.Scheduler.Observe
import Ecs.Scheduler.PoolProgress
import Ecs.Scheduler.Dispatch

import DbApi.Library.Rest
import DbApi.Proofs.ServerProgress

/-! The server does not go on for ever by itself: what is left to do falls with every step. -/

namespace DbApi.Proofs.ServerRest
open Library Concurrency Http Index DbApi.Runtime PoolJobs PoolShutdown ConnectionOwnership
  Serializability WorkerSeats PoolWaits ServerProgress ConcurrencyThreadPool

variable {n capacity : Nat}

section Controller

variable {T : Type} {p p' : ConcurrencyThreadPool T n capacity}

end Controller

/-! The weights fall along the way of a connection: through the accepting thread, the queue and a
worker. -/

section Shares

variable {s s' : ServerState n capacity} {w : Fin n}

end Shares

section Pool

variable {s : ServerState n capacity} {place : Nat → Option (Hand n)} {service : Service}
  {db : Database} {pool : ConcurrencyThreadPool Unit n capacity} {w : Fin n}

end Pool

section Runtime

variable {s : ServerState n capacity} {place : Nat → Option (Hand n)} {service : Service}
  {db : Database} {runtime : RuntimeState n capacity} {w : Fin n}

end Runtime

section Server

variable {s s' : ServerState n capacity} {place : Nat → Option (Hand n)} {service : Service}
  {db : Database} {runtime : RuntimeState n capacity} {w : Fin n} {request : HttpRequest}
  {sql : CString}

end Server

end DbApi.Proofs.ServerRest

import DbApi.Proofs.FullScan
import DbApi.Runtime.ExecuteQuery

namespace DbApi.Proofs.WholeBody
open Library Storage Index Http DbApi.Runtime FullScan

def routed (dirs : Directories) (request : HttpRequest) : Route Database :=
  route request (some (runtimeDependencies dirs))

end DbApi.Proofs.WholeBody

import DbApi.Http.Server

namespace DbApi.Http

/-- What `nanosleep` is asked for. -/
structure Timespec where
  tvSec : Nat
  tvNsec : Nat
deriving DecidableEq

/-- A step of the server that takes time, or one that has an effect. -/
inductive Step where
  | slept (requested : Timespec)
  | did (effect : Effect)
deriving DecidableEq

/-- A sleep that a signal ends early is taken up again for the rest of it. -/
def httpSleepMilliseconds (sleepMs : Nat) : List Step :=
  if sleepMs = 0 then []
  else [.slept { tvSec := sleepMs / 1000, tvNsec := sleepMs % 1000 * 1000000 }]

variable {σ : Type}

/-- The sleep between the routing of a request and its statement. -/
def sleepSteps (request : HttpRequest) (dependencies : Option (HttpServerDependencies σ)) :
    List Step :=
  match route request dependencies with
  | .answer _ => []
  | .execute _ _ =>
    match httpParseDebugSleepMs request with
    | .error _ => []
    | .ok sleepMs => httpSleepMilliseconds sleepMs

def httpRouteRequestSteps (request : HttpRequest) (dependencies : Option (HttpServerDependencies σ))
    (sendings : List Sending) (engine : σ) : List Step :=
  sleepSteps request dependencies ++
    (httpRouteRequest request dependencies sendings engine).effects.map .did

/-- The handling of a connection, step by step. -/
def httpServerHandleClientSteps (config : Option Nat)
    (dependencies : Option (HttpServerDependencies σ)) (client : Client) (sendings : List Sending)
    (engine : σ) : Option (List Step) :=
  match receiveRequest (effectiveMax (config.getD 0)) client with
  | .complete request =>
    some (httpRouteRequestSteps request dependencies sendings engine ++ [.did .closed])
  | _ =>
    (httpServerHandleClient config dependencies client sendings engine).map fun handled =>
      handled.effects.map .did

end DbApi.Http

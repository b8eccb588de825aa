import CongestionRouting.Session.AgentEvent
import CongestionRouting.Session.EngineEvent
import CongestionRouting.Session.HostEvent

namespace CongestionRouting

inductive SessionCore where
  | absent
  | agent (a : Agent)
  | engine (e : Engine)
  deriving DecidableEq

structure Session (ν : Type) where
  host : SessionHost ν
  core : SessionCore
  deriving DecidableEq

inductive SessionEvent where
  | host (event : HostEvent)
  | agent (event : AgentEvent)
  | engine (event : EngineEvent)
  deriving DecidableEq

namespace Session

variable {ν : Type} [TableHolder ν]

def start (neighbors : ν) (routes : RouteList) (core : SessionCore) : Session ν :=
  ⟨⟨neighbors, routes, .lowered, .idle⟩, core⟩

/-- An event for a core that the session does not have changes nothing. -/
def step (s : Session ν) : SessionEvent → Answer × Session ν
  | .host event =>
    let (answer, host) := s.host.step event
    (answer, { s with host := host })
  | .agent event =>
    match s.core with
    | .agent a =>
      let (answer, a, host) := a.step s.host event
      (answer, ⟨host, .agent a⟩)
    | _ => (.done, s)
  | .engine event =>
    match s.core with
    | .engine e =>
      let (answer, e, host) := e.step s.host event
      (answer, ⟨host, .engine e⟩)
    | _ => (.done, s)

/-- The answer to each event, and the session after it. -/
def trace (s : Session ν) : List SessionEvent → List (Answer × Session ν)
  | [] => []
  | event :: events =>
    let (answer, next) := s.step event
    (answer, next) :: next.trace events

end Session

end CongestionRouting

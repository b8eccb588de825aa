import CongestionRouting.Proofs.Pacing
import CongestionRouting.Proofs.Session.History

namespace CongestionRouting

theorem countP_cons_toNat {ε : Type} (p : ε → Bool) (first : ε) (rest : List ε) :
    (first :: rest).countP p = rest.countP p + (p first).toNat := by
  rw [List.countP_cons]
  cases p first <;> rfl

structure Node (ν ρ α τ : Type) where
  agent : Agent
  host : Host ν ρ α τ

inductive NodeEvent (ν ρ α τ : Type) where
  | agent (event : AgentEvent)
  /-- The host changes on its own account. -/
  | host (change : Host ν ρ α τ → Host ν ρ α τ)

/-- A change of a host as sessions have it. -/
def NodeEvent.ofHost {ν : Type} [TableHolder ν] (event : HostEvent) :
    NodeEvent ν RouteList UnreliableFlag CountingTimer :=
  .host fun host => (host.step event).2

/-- Whether the advertiser was asked for a notification. -/
def TickReport.asks (report : TickReport) : Bool := report.notified || !report.errors.isEmpty

def TickReport.poll (report : TickReport) : Poll := ⟨report.elapsed, report.verdict.selfCongested⟩

/-- The report of an interval that ended. -/
def Occurrence.report? : Occurrence → Option TickReport
  | ⟨.agent .tick, .report report⟩ => report
  | _ => none

namespace History

def reports (past : History) : List TickReport := past.filterMap Occurrence.report?

def polls (past : History) : List Poll := past.reports.reverse.map TickReport.poll

/-- How often the advertiser was asked since the last interval without congestion. -/
def asked (past : History) : Nat :=
  (past.reports.takeWhile fun report => report.verdict.selfCongested).countP TickReport.asks

variable {past : History} {o : Occurrence}

theorem reports_cons_of_none (h : o.report? = none) : reports (o :: past) = past.reports :=
  List.filterMap_cons_none h

theorem reports_cons_of_some {report : TickReport} (h : o.report? = some report) :
    reports (o :: past) = report :: past.reports :=
  List.filterMap_cons_some h

theorem polls_cons_of_some {report : TickReport} (h : o.report? = some report) :
    polls (o :: past) = past.polls ++ [report.poll] := by
  rw [polls, reports_cons_of_some h, List.reverse_cons, List.map_append]
  rfl

end History

namespace Node

variable {ν ρ α τ : Type} [Neighborhood ν] [RouteStore ρ] [Advertiser α] [IntervalTimer τ]

def step (s : Node ν ρ α τ) : NodeEvent ν ρ α τ → Option Answer × Node ν ρ α τ
  | .agent event =>
    let (answer, agent, host) := s.agent.step s.host event
    (some answer, ⟨agent, host⟩)
  | .host change => (none, { s with host := change s.host })

def run (s : Node ν ρ α τ) (events : List (NodeEvent ν ρ α τ)) : Node ν ρ α τ :=
  events.foldl (fun s event => (s.step event).2) s

def trace (s : Node ν ρ α τ) : List (NodeEvent ν ρ α τ) → List (Option Answer × Node ν ρ α τ)
  | [] => []
  | event :: events =>
    let (answer, next) := s.step event
    (answer, next) :: next.trace events

/-- The past after one more event, as far as the agent was told. -/
def remember (s : Node ν ρ α τ) (past : History) : NodeEvent ν ρ α τ → History
  | .agent event => ⟨.agent event, (s.agent.step s.host event).1⟩ :: past
  | .host _ => past

def history (s : Node ν ρ α τ) (past : History) : List (NodeEvent ν ρ α τ) → History
  | [] => past
  | event :: events => (s.step event).2.history (s.remember past event) events

variable {s : Node ν ρ α τ} {past : History}

theorem run_append (s : Node ν ρ α τ) (events later : List (NodeEvent ν ρ α τ)) :
    s.run (events ++ later) = (s.run events).run later :=
  List.foldl_append

theorem history_append (s : Node ν ρ α τ) (past : History) (events later : List (NodeEvent ν ρ α τ)) :
    s.history past (events ++ later) = (s.run events).history (s.history past events) later := by
  induction events generalizing s past with
  | nil => rfl
  | cons event events ih => exact ih _ _

theorem history_eq_append (s : Node ν ρ α τ) (past : History) (events : List (NodeEvent ν ρ α τ)) :
    s.history past events = s.history [] events ++ past := by
  induction events generalizing s past with
  | nil => rfl
  | cons event events ih =>
    cases event with
    | host change => exact ih _ past
    | agent event =>
      simp only [history, remember]
      rw [ih _ (_ :: past), ih _ [_], List.append_assoc, List.singleton_append]

/-- What each event of the agent keeps, whatever its host is, holds after every run. -/
theorem run_induction {P : History → Agent → Prop}
    (hstep : ∀ past a (host : Host ν ρ α τ) event, P past a →
      P (⟨.agent event, (a.step host event).1⟩ :: past) (a.step host event).2.1)
    (h : P past s.agent) (events : List (NodeEvent ν ρ α τ)) :
    P (s.history past events) (s.run events).agent := by
  induction events generalizing s past with
  | nil => exact h
  | cons event events ih =>
    cases event with
    | host change => exact ih (s := { s with host := change s.host }) h
    | agent event => exact ih (hstep past s.agent s.host event h)

end Node

end CongestionRouting

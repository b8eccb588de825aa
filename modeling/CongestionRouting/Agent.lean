import CongestionRouting.Engine
import CongestionRouting.Signal

namespace CongestionRouting

structure Tally where
  notifications : Nat
  notificationFailures : Nat
  signalsReceived : Nat
  activations : Nat
  activationsSkipped : Nat
  deactivations : Nat
  optionsSent : Nat
  optionsReceived : Nat
  optionsDropped : Nat
  deriving DecidableEq

namespace Tally

def zero : Tally := ⟨0, 0, 0, 0, 0, 0, 0, 0, 0⟩

/-- An activation that finds no usable detour gives up the one there was. -/
def addActivation (t : Tally) (wasActive : Bool) (activation : Activation) : Tally :=
  let given := t.deactivations + wasActive.toNat
  match activation with
  -- A detour that was found in order counts as neither.
  | .alreadyActive => t
  | .installed _ => { t with activations := t.activations + 1, deactivations := given }
  | _ => { t with activationsSkipped := t.activationsSkipped + 1, deactivations := given }

def addTick (t : Tally) (report : TickReport) : Tally :=
  let withdrawn := match report.outcome with
    | .withdrawn _ => true
    | _ => false
  { t with
    notifications := t.notifications + report.notified.toNat
    notificationFailures := t.notificationFailures + report.errors.length
    deactivations := t.deactivations + withdrawn.toNat }

def addDeactivation (t : Tally) (withdrawn : Bool) : Tally :=
  { t with deactivations := t.deactivations + withdrawn.toNat }

end Tally

structure Agent where
  config : Config
  engine : Engine
  tally : Tally
  lastVerdict : Option Verdict
  deriving DecidableEq

namespace Agent

variable {ν ρ α τ : Type} [Neighborhood ν] [RouteStore ρ] [Advertiser α] [IntervalTimer τ]

def ofConfig (c : Config) : Except ConfigError Agent :=
  c.check.map fun _ => ⟨c, .ofConfig c, .zero, none⟩

theorem ofConfig_eq_ok {c : Config} {a : Agent} (h : ofConfig c = .ok a) :
    a = ⟨c, .ofConfig c, .zero, none⟩ := by
  unfold ofConfig at h
  cases hcheck : c.check with
  | error e => simp [hcheck, Except.map] at h
  | ok u =>
    simp only [hcheck, Except.map, Except.ok.injEq] at h
    exact h.symm

def isRunning (a : Agent) : Bool := a.engine.clock.running

def isActive (a : Agent) : Bool := a.engine.steering.isActive

def addReceived (a : Agent) (n : Nat) : Agent :=
  { a with engine := { a.engine with counters := a.engine.counters.addReceived n } }

def addSent (a : Agent) (n : Nat) : Agent :=
  { a with engine := { a.engine with counters := a.engine.counters.addSent n } }

def start (a : Agent) (host : Host ν ρ α τ) : Agent × Host ν ρ α τ :=
  let (engine, host) := a.engine.start host
  ({ a with engine := engine }, host)

def stop (a : Agent) (host : Host ν ρ α τ) : Agent × Host ν ρ α τ :=
  let (hop, engine, host) := a.engine.withdraw .shutdown host
  let (engine, host) := engine.stop host
  ({ a with engine := engine, tally := a.tally.addDeactivation hop.isSome }, host)

def report (a : Agent) : CountOption × Agent :=
  let (count, counters) := a.engine.counters.takeSent
  (.ofCount a.config.optionType count,
    { a with
      engine := { a.engine with counters := counters }
      tally := { a.tally with optionsSent := a.tally.optionsSent + 1 } })

/-- Takes in the report of a child, which stands in a message at an offset. What is no report there
is dropped. -/
def receiveReport (a : Agent) (message : List UInt8) (offset : Nat) : Option UInt16 × Agent :=
  match CountOption.decodeAt a.config.optionType message offset with
  | .ok option =>
    (some option.count,
      { a with
        engine := { a.engine with
          counters := a.engine.counters.addExpected option.count.toNat }
        tally := { a.tally with optionsReceived := a.tally.optionsReceived + 1 } })
  | .error _ =>
    (none, { a with tally := { a.tally with optionsDropped := a.tally.optionsDropped + 1 } })

/-- Takes in a congestion signal. One from the preferred parent asks for a detour, unless the agent
is stopped. -/
def receiveSignal (a : Agent) (sender : Address) (host : Host ν ρ α τ) :
    Option Activation × Agent × Host ν ρ α τ :=
  let (source, neighbors) := recordSignal sender host.neighbors
  let host := { host with neighbors := neighbors }
  let counted : Agent := { a with
    tally := { a.tally with signalsReceived := a.tally.signalsReceived + 1 } }
  match source with
  | .unknown => (none, a, host)
  | .neighbor _ => (none, counted, host)
  | .preferredParent _ =>
    if !a.isRunning then (none, counted, host)
    else
      let (activation, engine, host) := a.engine.request host
      (some activation,
        { counted with
          engine := engine
          tally := counted.tally.addActivation a.isActive activation },
        host)

/-- To be told of a neighbor that left the table; withdraws the detour through it. -/
def forget (a : Agent) (h : NeighborHandle) (host : Host ν ρ α τ) : Bool × Agent × Host ν ρ α τ :=
  let (withdrawn, engine, host) := a.engine.forget h host
  (withdrawn, { a with engine := engine, tally := a.tally.addDeactivation withdrawn }, host)

def tick (a : Agent) (host : Host ν ρ α τ) : Option TickReport × Agent × Host ν ρ α τ :=
  match a.engine.tick host with
  | (none, engine, host) => (none, { a with engine := engine }, host)
  | (some report, engine, host) =>
    (some report,
      { a with
        engine := engine
        tally := a.tally.addTick report
        lastVerdict := some report.verdict },
      host)

def reseed (a : Agent) (seed : UInt64) : Agent := { a with engine := a.engine.reseed seed }

end Agent

end CongestionRouting

import CongestionRouting.Config
import CongestionRouting.Neighbor.Neighborhood
import CongestionRouting.Random

namespace CongestionRouting.Selection

variable {ν γ : Type} [Neighborhood ν] [RandomSource γ]

def isCandidate (table : ν) (preferred h : NeighborHandle) : Bool :=
  h ≠ preferred && Neighborhood.isRoutingParent table h

def isUncongestedCandidate (table : ν) (preferred h : NeighborHandle) : Bool :=
  isCandidate table preferred h && Neighborhood.congested table h = some false

/-- The first uncongested candidate, or else the last candidate. -/
def firstUncongested (table : ν) (preferred : NeighborHandle) : Option NeighborHandle :=
  let candidates := (Neighborhood.neighbors table).filter (isCandidate table preferred)
  (candidates.find? (isUncongestedCandidate table preferred)).or candidates.getLast?

def drawUncongested (table : ν) (preferred : NeighborHandle) (neighbors : List NeighborHandle) :
    Nat → γ → Option NeighborHandle × γ
  | 0, random => (none, random)
  | attempts + 1, random =>
    let (position, random) := drawBelow neighbors.length random
    match (neighbors[position]?).filter (isUncongestedCandidate table preferred) with
    | some h => (some h, random)
    | none => drawUncongested table preferred neighbors attempts random

/-- Without any neighbor nothing is drawn. -/
def select (policy : SelectionPolicy) (table : ν) (preferred : NeighborHandle) (random : γ) :
    Option NeighborHandle × γ :=
  match policy with
  | .deterministic => (firstUncongested table preferred, random)
  | .randomized attempts =>
    match Neighborhood.neighbors table with
    | [] => (none, random)
    | neighbors => drawUncongested table preferred neighbors attempts.toNat random

def selectRepeatedly (policy : SelectionPolicy) (table : ν) (preferred : NeighborHandle) :
    Nat → γ → List (Option NeighborHandle) × γ
  | 0, random => ([], random)
  | times + 1, random =>
    let (choice, random) := select policy table preferred random
    let (choices, random) := selectRepeatedly policy table preferred times random
    (choice :: choices, random)

end CongestionRouting.Selection

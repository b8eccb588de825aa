import CongestionRouting.Proofs.Route.Choice
import CongestionRouting.Random.ChaCha
import CongestionRouting.Route.Steering

namespace CongestionRouting

variable {ν ρ γ : Type} [Neighborhood ν] [RouteStore ρ] [RandomSource γ]

section Table

variable (table : ν) (detour : Detour)

/-- Through a routing parent in the table other than the preferred one. -/
def Detour.Fit : Prop :=
  Neighborhood.contains table detour.neighbor = true ∧
    (∃ parent ∈ Neighborhood.preferredParent table, parent ≠ detour.neighbor) ∧
    Neighborhood.isRoutingParent table detour.neighbor = true

def Detour.defect : WithdrawalReason :=
  if Neighborhood.contains table detour.neighbor = false then .alternateEvicted
  else if Neighborhood.preferredParent table = none then .noParent
  else if Neighborhood.preferredParent table = some detour.neighbor then .alternateIsPreferredParent
  else .alternateNotRoutingParent

def ParentFlagged : Prop :=
  ∃ parent ∈ Neighborhood.preferredParent table, Neighborhood.congested table parent = some true

instance : Decidable (detour.Fit table) := inferInstanceAs (Decidable (_ ∧ _ ∧ _))

instance : Decidable (ParentFlagged table) :=
  inferInstanceAs (Decidable (∃ parent ∈ Neighborhood.preferredParent table, _))

/-- A defect is never the parent's recovery, so its withdrawal holds nothing down. -/
theorem Detour.defect_ne_parentUncongested : detour.defect table ≠ .parentUncongested := by
  unfold Detour.defect
  split
  · exact nofun
  · split
    · exact nofun
    · split <;> exact nofun

variable {table detour}

theorem Steering.obstacle_eq : Steering.obstacle table detour =
    if detour.Fit table then none else some (detour.defect table) := by
  by_cases hcontains : Neighborhood.contains table detour.neighbor = true
  · obtain hparent | ⟨parent, hparent⟩ := (Neighborhood.preferredParent table).eq_none_or_eq_some
    · simp [obstacle, Detour.Fit, Detour.defect, hcontains, hparent]
    · by_cases hsame : parent = detour.neighbor
      · simp [obstacle, Detour.Fit, Detour.defect, hcontains, hparent, hsame]
      · by_cases hrouting : Neighborhood.isRoutingParent table detour.neighbor = true <;>
          simp [obstacle, Detour.Fit, Detour.defect, hcontains, hparent, hsame, hrouting]
  · simp [obstacle, Detour.Fit, Detour.defect, hcontains]

theorem Steering.parentCongested_iff :
    Steering.parentCongested table = true ↔ ParentFlagged table := by
  unfold Steering.parentCongested ParentFlagged
  obtain hparent | ⟨parent, hparent⟩ := (Neighborhood.preferredParent table).eq_none_or_eq_some
  · simp [hparent]
  · obtain hflag | ⟨flag, hflag⟩ := (Neighborhood.congested table parent).eq_none_or_eq_some <;>
      simp [hparent, hflag]

end Table

namespace Selection

section Eligible

variable (table : ν) (preferred h : NeighborHandle)

def Eligible : Prop := h ≠ preferred ∧ Neighborhood.isRoutingParent table h = true

def EligibleClear : Prop := Eligible table preferred h ∧ Neighborhood.congested table h = some false

instance : Decidable (Eligible table preferred h) := inferInstanceAs (Decidable (_ ∧ _))

instance : Decidable (EligibleClear table preferred h) := inferInstanceAs (Decidable (_ ∧ _))

end Eligible

variable {table : ν} {preferred : NeighborHandle}

def choose (policy : SelectionPolicy) (table : ν) (preferred : NeighborHandle) (random : γ) :
    Option NeighborHandle :=
  let neighbors := Neighborhood.neighbors table
  match policy with
  | .deterministic =>
    (neighbors.find? fun h => EligibleClear table preferred h).or
      (neighbors.reverse.find? fun h => Eligible table preferred h)
  | .randomized attempts =>
    (List.range attempts.toNat).findSome? fun j =>
      (neighbors[position neighbors.length random j]?).filter fun h => EligibleClear table preferred h

theorem isCandidate_eq : isCandidate table preferred = fun h => decide (Eligible table preferred h) := by
  funext h
  rw [Bool.eq_iff_iff, decide_eq_true_iff]
  simp [isCandidate, Eligible]

theorem isUncongestedCandidate_eq :
    isUncongestedCandidate table preferred = fun h => decide (EligibleClear table preferred h) := by
  funext h
  rw [Bool.eq_iff_iff, decide_eq_true_iff]
  simp [isUncongestedCandidate, isCandidate_eq, EligibleClear]

theorem drawUncongested_eq (neighbors : List NeighborHandle) (attempts : Nat) (random : γ) :
    (drawUncongested table preferred neighbors attempts random).1 =
      (List.range attempts).findSome? fun j =>
        (neighbors[position neighbors.length random j]?).filter
          fun h => EligibleClear table preferred h := by
  induction attempts generalizing random with
  | zero => rfl
  | succ attempts ih =>
    have hdraw : drawBelow neighbors.length random =
        (position neighbors.length random 0, (RandomSource.next random).2) := rfl
    rw [List.range_succ_eq_map, List.findSome?_cons, List.findSome?_map, drawUncongested, hdraw]
    simp only [isUncongestedCandidate_eq]
    split
    · next h hfound => rw [hfound]
    · next hmissed =>
      rw [hmissed, ih]
      rfl

/-- A clear neighbor is looked for among the eligible ones, which is no restriction. -/
theorem firstUncongested_eq_choose (random : γ) :
    firstUncongested table preferred = choose .deterministic table preferred random := by
  simp only [firstUncongested, choose, isCandidate_eq, isUncongestedCandidate_eq, List.find?_filter,
    List.getLast?_filter, decide_eq_true_eq]
  congr 2
  funext h
  rw [decide_eq_decide]
  exact and_iff_right_of_imp And.left

theorem select_eq_choose (policy : SelectionPolicy) (random : γ) :
    (select policy table preferred random).1 = choose policy table preferred random := by
  cases policy with
  | deterministic => exact firstUncongested_eq_choose random
  | randomized attempts =>
    simp only [select, choose]
    split
    · next hnil =>
      have hnone : ∀ j ∈ List.range attempts.toNat,
          (([] : List NeighborHandle)[position 0 random j]?).filter
            (fun h => EligibleClear table preferred h) = none := fun _ _ => rfl
      rw [hnil]
      exact (List.findSome?_eq_none_iff.2 hnone).symm
    · exact drawUncongested_eq _ _ _

end Selection

/-- What comes of an attempt to install a detour. -/
inductive Offer where
  | noParent
  | noCandidate
  | refused (nextHop : Address)
  | accepted (detour : Detour)

namespace Offer

def make (policy : SelectionPolicy) (priority : RoutePriority) (table : ν) (routes : ρ)
    (random : γ) : Offer :=
  match Neighborhood.preferredParent table with
  | none => .noParent
  | some parent =>
    match (Selection.choose policy table parent random).bind fun h =>
        (Neighborhood.address table h).map (Detour.mk h) with
    | none => .noCandidate
    | some detour =>
      if (RouteStore.add routes detour.nextHop priority).1 then .accepted detour
      else .refused detour.nextHop

def activation : Offer → Activation
  | .noParent => .noParent
  | .noCandidate => .noCandidate
  | .refused nextHop => .routeRejected nextHop
  | .accepted detour => .installed detour

end Offer

inductive Phase (h : Hysteresis) where
  | idle
  /-- Requests are ignored for so many intervals more. -/
  | held (left : Nat) (left_pos : 0 < left) (left_le : left ≤ h.holdDownIntervals.toNat)
  /-- A detour that was found usable at the end of so many intervals. -/
  | active (detour : Detour) (intervals : Nat)

inductive SteeringEvent (ν ρ γ : Type) where
  | request (table : ν) (routes : ρ) (random : γ)
  | withdraw (routes : ρ) (reason : WithdrawalReason)
  | endInterval (table : ν) (routes : ρ)
  | forget (neighbor : NeighborHandle) (routes : ρ)

inductive SteeringAnswer where
  | activation (a : Activation)
  | hop (a : Option Address)
  | outcome (o : IntervalOutcome)
  | flag (value : Bool)

/-- The answers to a sequence of events, and the state after it. -/
def respond {σ ε α : Type} (step : σ → ε → α × σ) (s : σ) : List ε → List α × σ
  | [] => ([], s)
  | event :: events =>
    let (answer, s) := step s event
    let (answers, s) := respond step s events
    (answer :: answers, s)

/-- A map of states that every step respects is respected by all runs. -/
theorem respond_map {σ τ ε α : Type} {step : σ → ε → α × σ} {step' : τ → ε → α × τ} (f : σ → τ)
    (h : ∀ s event, step' (f s) event = ((step s event).1, f (step s event).2)) (s : σ)
    (events : List ε) :
    respond step' (f s) events = ((respond step s events).1, f (respond step s events).2) := by
  induction events generalizing s with
  | nil => rfl
  | cons event events ih => simp only [respond, h, ih]

namespace Steering

theorem obstacle_ne_parentUncongested {table : ν} {detour : Detour} {reason : WithdrawalReason}
    (h : obstacle table detour = some reason) : reason ≠ .parentUncongested := by
  rw [obstacle_eq, Option.ite_none_left_eq_some, Option.some.injEq] at h
  exact h.2 ▸ detour.defect_ne_parentUncongested table

/-- The tables are presented anew with every event. -/
def step (s : Steering) : SteeringEvent ν ρ γ → SteeringAnswer × Steering
  | .request table routes random =>
    let (activation, s, _) := s.request table routes random
    (.activation activation, s)
  | .withdraw routes reason =>
    let (hop, s, _) := s.withdraw routes reason
    (.hop hop, s)
  | .endInterval table routes =>
    let (outcome, s, _) := s.endInterval table routes
    (.outcome outcome, s)
  | .forget neighbor routes =>
    let (withdrawn, s, _) := s.forget neighbor routes
    (.flag withdrawn, s)

end Steering

namespace Phase

variable {h : Hysteresis}

/-- The record of a phase. The count of intervals saturates there. -/
def steering (policy : SelectionPolicy) (priority : RoutePriority) : Phase h → Steering
  | .idle => ⟨policy, priority, h, none, false, 0, 0⟩
  | .held left _ _ => ⟨policy, priority, h, none, true, 0, UInt32.ofNat left⟩
  | .active detour intervals => ⟨policy, priority, h, some detour, false, saturate32 intervals, 0⟩

def settle : Offer → Phase h
  | .accepted detour => .active detour 0
  | _ => .idle

/-- The phase that a recovered parent leads to. -/
def recovered : Phase h :=
  if pos : 0 < h.holdDownIntervals.toNat then .held h.holdDownIntervals.toNat pos (Nat.le_refl _)
  else .idle

/-- All but a recovered parent lead to the idle phase. -/
def afterWithdrawal (reason : WithdrawalReason) : Phase h :=
  if reason = .parentUncongested then recovered else .idle

theorem afterWithdrawal_defect (table : ν) (detour : Detour) :
    afterWithdrawal (h := h) (detour.defect table) = .idle :=
  if_neg (detour.defect_ne_parentUncongested table)

def release : Phase h → Phase h
  | .held (left + 1) _ left_le =>
    if pos : 0 < left then .held left pos (Nat.le_of_succ_le left_le) else .idle
  | p => p

def request (policy : SelectionPolicy) (priority : RoutePriority) (table : ν) (routes : ρ)
    (random : γ) : Phase h → Activation × Phase h
  | .idle =>
    let offer := Offer.make policy priority table routes random
    (offer.activation, settle offer)
  | .held left left_pos left_le => (.suppressed, .held left left_pos left_le)
  | .active detour intervals =>
    if detour.Fit table then (.alreadyActive, .active detour intervals)
    else
      let offer :=
        Offer.make policy priority table (RouteStore.remove routes detour.nextHop) random
      (offer.activation, settle offer)

def withdraw (reason : WithdrawalReason) : Phase h → Option Address × Phase h
  | .active detour _ => (some detour.nextHop, afterWithdrawal reason)
  | p => (none, p)

def endInterval (table : ν) : Phase h → IntervalOutcome × Phase h
  | .active detour intervals =>
    if detour.Fit table then
      if ParentFlagged table then (.kept, .active detour (intervals + 1))
      else if intervals + 1 < h.minActiveIntervals.toNat then
        (.deferred, .active detour (intervals + 1))
      else (.withdrawn .parentUncongested, recovered)
    else (.withdrawn (detour.defect table), .idle)
  | p => (.inactive, p.release)

def forget (neighbor : NeighborHandle) : Phase h → Bool × Phase h
  | .active detour intervals =>
    if detour.neighbor = neighbor then (true, .idle) else (false, .active detour intervals)
  | p => (false, p)

def step (policy : SelectionPolicy) (priority : RoutePriority) (p : Phase h) :
    SteeringEvent ν ρ γ → SteeringAnswer × Phase h
  | .request table routes random =>
    let (activation, p) := p.request policy priority table routes random
    (.activation activation, p)
  | .withdraw _ reason =>
    let (hop, p) := p.withdraw reason
    (.hop hop, p)
  | .endInterval table _ =>
    let (outcome, p) := p.endInterval table
    (.outcome outcome, p)
  | .forget neighbor _ =>
    let (withdrawn, p) := p.forget neighbor
    (.flag withdrawn, p)

section Record

variable (policy : SelectionPolicy) (priority : RoutePriority)

theorem startsHoldDown_steering (p : Phase h) (reason : WithdrawalReason) :
    (p.steering policy priority).startsHoldDown reason =
      decide (reason = .parentUncongested ∧ 0 < h.holdDownIntervals.toNat) := by
  cases p <;> simp [steering, Steering.startsHoldDown, UInt32.lt_iff_toNat_lt]

theorem withdraw_active (detour : Detour) (intervals : Nat) (routes : ρ)
    (reason : WithdrawalReason) :
    (steering (h := h) policy priority (.active detour intervals)).withdraw routes reason =
      (some detour.nextHop, (afterWithdrawal (h := h) reason).steering policy priority,
        RouteStore.remove routes detour.nextHop) := by
  have hold := startsHoldDown_steering policy priority (.active (h := h) detour intervals) reason
  simp only [steering] at hold
  simp only [steering, Steering.withdraw, hold, decide_eq_true_eq]
  by_cases hr : reason = .parentUncongested
  · by_cases hpos : 0 < h.holdDownIntervals.toNat
    · simp [hr, hpos, afterWithdrawal, recovered]
    · simp [hr, hpos, afterWithdrawal, recovered]
  · simp [hr, afterWithdrawal]

theorem withdraw_steering (p : Phase h) (routes : ρ) (reason : WithdrawalReason) :
    ((p.steering policy priority).withdraw routes reason).1 = (p.withdraw reason).1 ∧
      ((p.steering policy priority).withdraw routes reason).2.1 =
        (p.withdraw reason).2.steering policy priority := by
  cases p with
  | active detour intervals => simp [withdraw_active, withdraw]
  | idle => exact ⟨rfl, rfl⟩
  | held left left_pos left_le => exact ⟨rfl, rfl⟩

theorem releaseHoldDown_steering (p : Phase h) :
    (p.steering policy priority).releaseHoldDown = p.release.steering policy priority := by
  cases p with
  | idle => rfl
  | active detour intervals => rfl
  | held left left_pos left_le =>
    cases left with
    | zero => exact absurd left_pos (Nat.lt_irrefl 0)
    | succ left =>
      -- The time left is at most the hold-down time, which is a word: no count wraps around.
      have hlt : left + 1 < UInt32.size :=
        Nat.lt_of_le_of_lt left_le h.holdDownIntervals.toNat_lt_size
      have hleft : (UInt32.ofNat (left + 1)).toNat = left + 1 := UInt32.toNat_ofNat_of_lt' hlt
      have hzero : UInt32.ofNat left = 0 ↔ left = 0 := by
        rw [← UInt32.toNat_inj, UInt32.toNat_ofNat_of_lt' (Nat.lt_of_succ_lt hlt)]
        rfl
      simp only [steering, Steering.releaseHoldDown, if_true, hleft, Nat.add_sub_cancel, release]
      by_cases hpos : 0 < left
      · simp only [hpos, dif_pos, hzero, ne_eq, Nat.ne_of_gt hpos, not_false_eq_true, decide_true]
      · have hl : left = 0 := Nat.eq_zero_of_not_pos hpos
        subst hl
        rfl

theorem install_idle (table : ν) (routes : ρ) (random : γ) :
    ((steering (h := h) policy priority .idle).install table routes random).1 =
        (Offer.make policy priority table routes random).activation ∧
      ((steering (h := h) policy priority .idle).install table routes random).2.1 =
        (settle (h := h) (Offer.make policy priority table routes random)).steering policy
          priority := by
  simp only [Steering.install, Offer.make, steering, Bool.false_eq_true, if_false]
  cases Neighborhood.preferredParent table with
  | none => exact ⟨rfl, rfl⟩
  | some parent =>
    simp only [Selection.select_eq_choose]
    generalize (Selection.choose policy table parent random).bind
      (fun h => (Neighborhood.address table h).map (Detour.mk h)) = choice
    cases choice with
    | none => exact ⟨rfl, rfl⟩
    | some detour =>
      simp only
      rcases RouteStore.add routes detour.nextHop priority with ⟨accepted, routes'⟩
      cases accepted with
      | false => exact ⟨rfl, rfl⟩
      | true => exact ⟨rfl, rfl⟩

theorem request_steering (p : Phase h) (table : ν) (routes : ρ) (random : γ) :
    ((p.steering policy priority).request table routes random).1 =
        (p.request policy priority table routes random).1 ∧
      ((p.steering policy priority).request table routes random).2.1 =
        (p.request policy priority table routes random).2.steering policy priority := by
  cases p with
  | idle => exact install_idle policy priority table routes random
  | held left left_pos left_le => exact ⟨rfl, rfl⟩
  | active detour intervals =>
    have hw := withdraw_active (h := h) policy priority detour intervals routes
    simp only [Steering.request, Steering.obstacle_eq, steering, request] at hw ⊢
    by_cases hfit : detour.Fit table
    · simp only [hfit, if_true, and_self]
    · -- The old detour goes without hold-down, so the new attempt starts from the idle phase.
      simp only [hfit, if_false, hw, afterWithdrawal_defect]
      exact install_idle policy priority table (RouteStore.remove routes detour.nextHop) random

theorem endInterval_steering (p : Phase h) (table : ν) (routes : ρ) :
    ((p.steering policy priority).endInterval table routes).1 = (p.endInterval table).1 ∧
      ((p.steering policy priority).endInterval table routes).2.1 =
        (p.endInterval table).2.steering policy priority := by
  cases p with
  | idle => exact ⟨rfl, rfl⟩
  | held left left_pos left_le =>
    exact ⟨rfl, releaseHoldDown_steering policy priority (.held left left_pos left_le)⟩
  | active detour intervals =>
    have hw := fun n => withdraw_active (h := h) policy priority detour n routes
    have hcount : saturate32 ((saturate32 intervals).toNat + 1) = saturate32 (intervals + 1) :=
      saturate32_add intervals 1
    -- The saturated count is below a 32-bit minimum exactly if the true count is.
    have hlt : saturate32 (intervals + 1) < h.minActiveIntervals ↔
        intervals + 1 < h.minActiveIntervals.toNat := by
      have := h.minActiveIntervals.toNat_lt
      rw [UInt32.lt_iff_toNat_lt, toNat_saturate32]
      omega
    simp only [Steering.endInterval, Steering.obstacle_eq, Steering.parentCongested_iff, steering,
      endInterval] at hw ⊢
    by_cases hfit : detour.Fit table
    · simp only [hfit, if_true, hcount, hlt]
      by_cases hflag : ParentFlagged table
      · simp only [hflag, if_true, and_self]
      · by_cases hmin : intervals + 1 < h.minActiveIntervals.toNat
        · simp only [hflag, hmin, if_true, if_false, and_self]
        · simp only [hflag, hmin, if_false, hw, afterWithdrawal, if_true, true_and]
    · simp only [hfit, if_false, hw, afterWithdrawal_defect, and_self]

theorem forget_steering (p : Phase h) (neighbor : NeighborHandle) (routes : ρ) :
    ((p.steering policy priority).forget neighbor routes).1 = (p.forget neighbor).1 ∧
      ((p.steering policy priority).forget neighbor routes).2.1 =
        (p.forget neighbor).2.steering policy priority := by
  cases p with
  | idle => exact ⟨rfl, rfl⟩
  | held left left_pos left_le => exact ⟨rfl, rfl⟩
  | active detour intervals =>
    have hw := withdraw_active (h := h) policy priority detour intervals routes .alternateEvicted
    have hidle : afterWithdrawal (h := h) .alternateEvicted = .idle := if_neg (by decide)
    simp only [Steering.forget, steering, forget, Option.map_some, Option.some.injEq] at hw ⊢
    by_cases hn : detour.neighbor = neighbor
    · simp only [hn, if_true, hw, hidle, Option.isSome_some, and_self]
    · simp only [hn, if_false, and_self]

theorem step_steering (p : Phase h) (event : SteeringEvent ν ρ γ) :
    (p.steering policy priority).step event =
      ((p.step policy priority event).1,
        (p.step policy priority event).2.steering policy priority) := by
  cases event with
  | request table routes random =>
    obtain ⟨ha, hs⟩ := request_steering policy priority p table routes random
    simp only [Steering.step, step, ha, hs]
  | withdraw routes reason =>
    obtain ⟨ha, hs⟩ := withdraw_steering policy priority p routes reason
    simp only [Steering.step, step, ha, hs]
  | endInterval table routes =>
    obtain ⟨ha, hs⟩ := endInterval_steering policy priority p table routes
    simp only [Steering.step, step, ha, hs]
  | forget neighbor routes =>
    obtain ⟨ha, hs⟩ := forget_steering policy priority p neighbor routes
    simp only [Steering.step, step, ha, hs]

end Record

/-- The held phase is entered from an active one only, for the full time, by the withdrawal that
follows the parent's recovery. -/
theorem entered_held {policy : SelectionPolicy} {priority : RoutePriority} {p : Phase h}
    {event : SteeringEvent ν ρ γ} {left : Nat} {left_pos : 0 < left}
    {left_le : left ≤ h.holdDownIntervals.toNat}
    (hp : ∀ l pos le, p ≠ .held l pos le)
    (hs : (p.step policy priority event).2 = .held left left_pos left_le) :
    left = h.holdDownIntervals.toNat ∧ (∃ detour intervals, p = .active detour intervals) ∧
      ((∃ routes, event = .withdraw routes .parentUncongested) ∨
        (p.step policy priority event).1 = .outcome (.withdrawn .parentUncongested)) := by
  have hrec : recovered = .held left left_pos left_le → left = h.holdDownIntervals.toNat := by
    unfold recovered
    split
    · intro he
      injection he with he
      exact he.symm
    · exact nofun
  have hsettle : ∀ offer, settle offer ≠ .held left left_pos left_le := by
    intro offer
    cases offer <;> exact nofun
  -- Only a withdrawal for the parent's recovery comes to the held phase.
  cases p with
  | held l pos le => exact absurd rfl (hp l pos le)
  | idle =>
    cases event with
    | request table routes random => exact absurd hs (hsettle _)
    | withdraw routes reason => exact absurd hs nofun
    | endInterval table routes => exact absurd hs nofun
    | forget neighbor routes => exact absurd hs nofun
  | active detour intervals =>
    cases event with
    | request table routes random =>
      simp only [step, request] at hs
      split at hs
      · exact absurd hs nofun
      · exact absurd hs (hsettle _)
    | withdraw routes reason =>
      simp only [step, withdraw, afterWithdrawal] at hs
      split at hs
      · next hr => exact ⟨hrec hs, ⟨detour, intervals, rfl⟩, .inl ⟨routes, by rw [hr]⟩⟩
      · exact absurd hs nofun
    | endInterval table routes =>
      simp only [step, endInterval] at hs ⊢
      split at hs
      · split at hs
        · exact absurd hs nofun
        · split at hs
          · exact absurd hs nofun
          · next hfit hflag hmin =>
            refine ⟨hrec hs, ⟨detour, intervals, rfl⟩, .inr ?_⟩
            rw [if_pos hfit, if_neg hflag, if_neg hmin]
      · exact absurd hs nofun
    | forget neighbor routes =>
      simp only [step, forget] at hs
      split at hs <;> exact absurd hs nofun

/-- Steering answers any sequence of events as the automaton does that starts idle, and its record
is that of the phase reached. -/
theorem steering_run_eq_phase_run (policy : SelectionPolicy) (priority : RoutePriority)
    (h : Hysteresis) (events : List (SteeringEvent ν ρ γ)) :
    respond Steering.step (Steering.start policy priority h) events =
        ((respond (step policy priority) (.idle : Phase h) events).1,
          (respond (step policy priority) (.idle : Phase h) events).2.steering policy priority) ∧
      ∀ (p : Phase h) (event : SteeringEvent ν ρ γ) left left_pos left_le,
        (∀ l pos le, p ≠ .held l pos le) →
        (p.step policy priority event).2 = .held left left_pos left_le →
        left = h.holdDownIntervals.toNat ∧ (∃ detour intervals, p = .active detour intervals) ∧
          ((∃ routes, event = .withdraw routes .parentUncongested) ∨
            (p.step policy priority event).1 = .outcome (.withdrawn .parentUncongested)) := by
  refine ⟨?_, fun p event left left_pos left_le hp hs => entered_held hp hs⟩
  exact respond_map (steering policy priority) (step_steering policy priority) .idle events

/-- A detour whose parent recovers is followed by two intervals of suppression. -/
theorem steering_run_eq_phase_run_recovery :
    let h : Hysteresis := ⟨0, 2⟩
    let p : Phase h := .active ⟨⟨1, 0⟩, ⟨#v[0xfe80, 0, 0, 0, 0, 0, 0, 2]⟩⟩ 3
    let event : SteeringEvent NeighborTable RouteList ChaCha :=
      .withdraw (.empty 4) .parentUncongested
    (∀ l pos le, p ≠ .held l pos le) ∧
      (p.step .deterministic ⟨1⟩ event).2 = .held 2 (by decide) (by decide) ∧
      2 = h.holdDownIntervals.toNat := by
  intro h p event
  have hs : (p.step .deterministic ⟨1⟩ event).2 = .held 2 (by decide) (by decide) := rfl
  have hrun := (steering_run_eq_phase_run .deterministic ⟨1⟩ h [event]).2
  exact ⟨nofun, hs, (hrun p event 2 _ _ nofun hs).1⟩

end Phase

end CongestionRouting

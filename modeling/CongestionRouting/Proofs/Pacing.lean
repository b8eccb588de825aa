import CongestionRouting.Pacer
import Mathlib

namespace CongestionRouting

/-- A question to a pacer: whether a notification is due at a time, with or without congestion. -/
structure Poll where
  now : Duration
  congested : Bool
  deriving DecidableEq

namespace Duration

variable {a b : Duration}

theorem nanos_min (a b : Duration) : (min a b).nanos = min a.nanos b.nanos := by
  change (if a ≤ b then a else b).nanos = _
  split
  · next hle => exact (Nat.min_eq_left hle).symm
  · next hle => exact (Nat.min_eq_right (Nat.le_of_not_le hle)).symm

theorem nanos_le_longest (d : Duration) : d.nanos ≤ longest.nanos := Nat.le_of_lt_succ d.nanos_lt

end Duration

namespace Pacing

/-- The time to wait after the notification of that number in an episode. -/
def wait (p : Pacing) (n : Nat) : Duration :=
  .saturate (min (p.minInterval.nanos * 2 ^ (n - 1)) p.maxInterval.nanos)

variable {p : Pacing}

theorem nanos_wait (p : Pacing) (n : Nat) :
    (p.wait n).nanos = min (p.minInterval.nanos * 2 ^ (n - 1)) p.maxInterval.nanos :=
  Nat.min_eq_left ((Nat.min_le_right _ _).trans p.maxInterval.nanos_le_longest)

theorem wait_one (hp : p.minInterval ≤ p.maxInterval) : p.wait 1 = p.minInterval := by
  apply Duration.ext_nanos
  rw [nanos_wait, Nat.sub_self, Nat.pow_zero, Nat.mul_one]
  exact Nat.min_eq_left hp

theorem wait_add_two (p : Pacing) (n : Nat) :
    p.wait (n + 2) = min (p.wait (n + 1)).double p.maxInterval := by
  apply Duration.ext_nanos
  have hmax := p.maxInterval.nanos_le_longest
  have hpow : p.minInterval.nanos * 2 ^ (n + 1) = 2 * (p.minInterval.nanos * 2 ^ n) := by
    rw [Nat.pow_succ, ← Nat.mul_assoc, Nat.mul_comm]
  rw [Duration.nanos_min, Duration.double, Duration.nanos_saturate, nanos_wait, nanos_wait,
    Nat.add_sub_cancel, Nat.succ_sub_one, hpow]
  omega

theorem minInterval_le_wait (hp : p.minInterval ≤ p.maxInterval) (n : Nat) :
    p.minInterval ≤ p.wait n := by
  rw [Duration.le_iff, nanos_wait, Nat.le_min]
  exact ⟨Nat.le_mul_of_pos_right _ (Nat.two_pow_pos _), hp⟩

theorem wait_le_maxInterval (p : Pacing) (n : Nat) : p.wait n ≤ p.maxInterval := by
  rw [Duration.le_iff, nanos_wait]
  exact Nat.min_le_right _ _

end Pacing

namespace Pacer

def after (p : Pacer) (polls : List Poll) : Pacer :=
  polls.foldl (fun p poll => (p.ask poll.now poll.congested).2) p

/-- A sequence of polls, each with its answer. -/
def log (p : Pacer) : List Poll → List (Poll × Bool)
  | [] => []
  | poll :: polls =>
    let (due, p) := p.ask poll.now poll.congested
    (poll, due) :: p.log polls

/-- How many notifications were due since the last poll without congestion. -/
def sentInEpisode (log : List (Poll × Bool)) : Nat :=
  (log.rtakeWhile fun entry => entry.1.congested).countP Prod.snd

variable {p : Pacer} {pacing : Pacing} {polls : List Poll} {poll : Poll}

section Ask

variable {now : Duration}

theorem ask_uncongested : p.ask now false =
    (false, { p with backoff := p.pacing.minInterval, nextAllowed := now }) := rfl

theorem ask_held (h : now < p.nextAllowed) : p.ask now true = (false, p) := by
  simp only [ask, Bool.not_true, Bool.false_eq_true, if_false, if_pos h]

theorem ask_due (h : p.nextAllowed ≤ now) : p.ask now true =
    (true, { p with
      backoff := min p.backoff.double p.pacing.maxInterval
      nextAllowed := now.saturatingAdd p.backoff }) := by
  have hover : ¬now < p.nextAllowed := Nat.not_lt.2 h
  simp only [ask, Bool.not_true, Bool.false_eq_true, if_false, if_neg hover]

/-- With congestion it only matters whether the time to wait is over. -/
theorem ask_congested (p : Pacer) (now : Duration) :
    (p.ask now true).1 = decide (p.nextAllowed ≤ now) := by
  rcases Nat.lt_or_ge now.nanos p.nextAllowed.nanos with hlt | hle
  · rw [ask_held hlt]
    exact (decide_eq_false (Nat.not_le.2 hlt)).symm
  · rw [ask_due hle]
    exact (decide_eq_true hle).symm

theorem pacing_ask (p : Pacer) (now : Duration) (congested : Bool) :
    (p.ask now congested).2.pacing = p.pacing := by
  unfold ask
  split
  · rfl
  · split <;> rfl

end Ask

theorem after_append (p : Pacer) (before rest : List Poll) :
    p.after (before ++ rest) = (p.after before).after rest := List.foldl_append

theorem log_append (p : Pacer) (before rest : List Poll) :
    p.log (before ++ rest) = p.log before ++ (p.after before).log rest := by
  induction before generalizing p with
  | nil => rfl
  | cons poll before ih => exact congrArg ((poll, (p.ask poll.now poll.congested).1) :: ·) (ih _)

theorem after_singleton (p : Pacer) (poll : Poll) :
    p.after [poll] = (p.ask poll.now poll.congested).2 := rfl

theorem log_singleton (p : Pacer) (poll : Poll) :
    p.log [poll] = [(poll, (p.ask poll.now poll.congested).1)] := rfl

@[simp]
theorem map_fst_log (p : Pacer) (polls : List Poll) : (p.log polls).map Prod.fst = polls := by
  induction polls generalizing p with
  | nil => rfl
  | cons poll polls ih => exact congrArg (poll :: ·) (ih _)

theorem pacing_after (p : Pacer) (polls : List Poll) : (p.after polls).pacing = p.pacing := by
  induction polls generalizing p with
  | nil => rfl
  | cons poll polls ih => exact (ih _).trans (pacing_ask p poll.now poll.congested)

theorem log_eq_append {before rest : List (Poll × Bool)} (h : p.log polls = before ++ rest) :
    polls = before.map Prod.fst ++ rest.map Prod.fst ∧ before = p.log (before.map Prod.fst) ∧
      rest = (p.after (before.map Prod.fst)).log (rest.map Prod.fst) := by
  have hpolls : polls = before.map Prod.fst ++ rest.map Prod.fst := by
    rw [← List.map_append, ← h, map_fst_log]
  have hlength : (p.log (before.map Prod.fst)).length = before.length := by
    rw [← List.length_map (f := Prod.fst), map_fst_log, List.length_map]
  rw [hpolls, log_append] at h
  obtain ⟨hbefore, hrest⟩ := List.append_inj h hlength
  exact ⟨hpolls, hbefore.symm, hrest.symm⟩

theorem log_eq_cons {due : Bool} {rest : List (Poll × Bool)} (h : p.log polls = (poll, due) :: rest) :
    due = (p.ask poll.now poll.congested).1 := by
  cases polls with
  | nil => exact absurd h nofun
  | cons first polls =>
    simp only [log, List.cons.injEq, Prod.mk.injEq] at h
    rw [← h.1.2, h.1.1]

section Episode

variable {log : List (Poll × Bool)}

theorem sentInEpisode_uncongested (h : poll.congested = false) (due : Bool) :
    sentInEpisode (log ++ [(poll, due)]) = 0 := by
  rw [sentInEpisode, List.rtakeWhile_concat_neg _ _ _ (by simp [h])]
  rfl

theorem sentInEpisode_congested (h : poll.congested = true) (due : Bool) :
    sentInEpisode (log ++ [(poll, due)]) = sentInEpisode log + due.toNat := by
  have hkept := List.rtakeWhile_concat_pos (fun entry : Poll × Bool => entry.1.congested) log
    (poll, due) h
  rw [sentInEpisode, hkept, List.countP_append, ← sentInEpisode]
  cases due <;> rfl

end Episode

/-- The register of the next wait counts the notifications of the episode. -/
theorem backoff_after (hp : pacing.minInterval ≤ pacing.maxInterval) (polls : List Poll) :
    ((start pacing).after polls).backoff =
      pacing.wait (sentInEpisode ((start pacing).log polls) + 1) := by
  induction polls using List.reverseRecOn with
  | nil =>
    change pacing.minInterval = pacing.wait (0 + 1)
    exact (Pacing.wait_one hp).symm
  | append_singleton polls poll ih =>
    have hpacing : ((start pacing).after polls).pacing = pacing := pacing_after _ polls
    rw [after_append, log_append, after_singleton, log_singleton]
    generalize (start pacing).after polls = p at ih hpacing ⊢
    cases hcongested : poll.congested with
    | false =>
      rw [sentInEpisode_uncongested hcongested, Pacing.wait_one hp, ask_uncongested, hpacing]
    | true =>
      rw [sentInEpisode_congested hcongested]
      -- A poll within the wait leaves the register and the count as they are.
      rcases Nat.lt_or_ge poll.now.nanos p.nextAllowed.nanos with hlt | hle
      · rw [ask_held hlt]
        exact ih
      · rw [ask_due hle]
        simp only [ih, hpacing]
        exact (Pacing.wait_add_two pacing _).symm

theorem after_held (hcongested : ∀ poll ∈ polls, poll.congested = true)
    (hheld : ∀ poll ∈ polls, poll.now < p.nextAllowed) : p.after polls = p := by
  induction polls with
  | nil => rfl
  | cons poll polls ih =>
    have hask : (p.ask poll.now poll.congested).2 = p := by
      rw [hcongested poll List.mem_cons_self, ask_held (hheld poll List.mem_cons_self)]
    change (p.ask poll.now poll.congested).2.after polls = p
    rw [hask]
    exact ih (fun poll hmem => hcongested poll (List.mem_cons_of_mem _ hmem))
      fun poll hmem => hheld poll (List.mem_cons_of_mem _ hmem)

/-- Where an episode begins there is nothing to wait for. -/
theorem nextAllowed_le_of_opening {before : List (Poll × Bool)}
    (hlast : ∀ last ∈ before.getLast?, last.1.congested = false)
    (hle : ∀ entry ∈ before, entry.1.now ≤ poll.now) :
    ((start pacing).after (before.map Prod.fst)).nextAllowed ≤ poll.now := by
  rcases List.eq_nil_or_concat before with rfl | ⟨earlier, last, rfl⟩
  · exact Nat.zero_le _
  · have hcalm : last.1.congested = false := hlast last (by simp)
    rw [List.concat_eq_append, List.map_append, after_append]
    change (Pacer.ask _ last.1.now last.1.congested).2.nextAllowed ≤ poll.now
    rw [hcalm, ask_uncongested]
    exact hle last (by simp)

/-- A notification holds the next one back for the wait that its number tells. -/
theorem nextAllowed_of_sent (hp : pacing.minInterval ≤ pacing.maxInterval)
    {before rest : List (Poll × Bool)} {sent : Poll}
    (hlog : (start pacing).log polls = before ++ (sent, true) :: rest) :
    ((start pacing).after ((before ++ [(sent, true)]).map Prod.fst)).nextAllowed =
      sent.now.saturatingAdd (pacing.wait (sentInEpisode (before ++ [(sent, true)]))) := by
  obtain ⟨-, hbefore, hrest⟩ := log_eq_append hlog
  have hsent := log_eq_cons hrest.symm
  have hbackoff := backoff_after hp (before.map Prod.fst)
  rw [← hbefore] at hbackoff
  rw [List.map_append, List.map_singleton, after_append, after_singleton]
  generalize (start pacing).after (before.map Prod.fst) = p at hsent hbackoff
  cases hcongested : sent.congested with
  | false =>
    rw [hcongested, ask_uncongested] at hsent
    exact absurd hsent nofun
  | true =>
    rw [hcongested, ask_congested] at hsent
    rw [ask_due (of_decide_eq_true hsent.symm), sentInEpisode_congested hcongested, hbackoff]
    rfl

/-- Without congestion nothing is due. In an episode the first poll is answered by a notification, and
after the one of some number the next is due at the first poll that does not come before its wait is
over. The wait for the next one stays within its bounds all the time. -/
theorem notifications_paced (hp : pacing.minInterval ≤ pacing.maxInterval)
    (hsorted : polls.Pairwise fun a b => a.now ≤ b.now) :
    ((start pacing).log polls).map Prod.fst = polls ∧
      (∀ poll due, (poll, due) ∈ (start pacing).log polls → poll.congested = false → due = false) ∧
      (∀ before poll due rest, (start pacing).log polls = before ++ (poll, due) :: rest →
        poll.congested = true → (∀ last ∈ before.getLast?, last.1.congested = false) → due = true) ∧
      (∀ before sent between poll due rest,
        (start pacing).log polls = before ++ (sent, true) :: (between ++ (poll, due) :: rest) →
        (∀ entry ∈ between, entry.1.congested = true) → poll.congested = true →
        let deadline := sent.now.saturatingAdd (pacing.wait (sentInEpisode (before ++ [(sent, true)])))
        (∀ entry ∈ between, entry.1.now < deadline) → due = decide (deadline ≤ poll.now)) ∧
      ∀ count, pacing.minInterval ≤ ((start pacing).after (polls.take count)).backoff ∧
        ((start pacing).after (polls.take count)).backoff ≤ pacing.maxInterval := by
  refine ⟨map_fst_log _ polls, fun poll due hmem hcalm => ?_,
    fun before poll due rest hlog hcongested hlast => ?_,
    fun before sent between poll due rest hlog hbetween hcongested hheld => ?_,
    fun count => ?_⟩
  · obtain ⟨before, rest, hlog⟩ := List.append_of_mem hmem
    obtain ⟨-, -, hrest⟩ := log_eq_append hlog
    rw [log_eq_cons hrest.symm, hcalm, ask_uncongested]
  · obtain ⟨hpolls, -, hrest⟩ := log_eq_append hlog
    have hle : ∀ entry ∈ before, entry.1.now ≤ poll.now := fun entry hmem =>
      (List.pairwise_append.1 (hpolls ▸ hsorted)).2.2 entry.1 (List.mem_map_of_mem hmem) poll
        List.mem_cons_self
    rw [log_eq_cons hrest.symm, hcongested, ask_congested]
    exact decide_eq_true (nextAllowed_le_of_opening hlast hle)
  · have hnext := nextAllowed_of_sent hp hlog
    have hsplit : (start pacing).log polls =
        (before ++ [(sent, true)] ++ between) ++ (poll, due) :: rest := by
      rw [hlog]
      simp
    obtain ⟨-, -, hrest⟩ := log_eq_append hsplit
    have hdue := log_eq_cons hrest.symm
    -- Between the notification and the poll the pacer stays as it is.
    have hkept : (start pacing).after ((before ++ [(sent, true)] ++ between).map Prod.fst) =
        (start pacing).after ((before ++ [(sent, true)]).map Prod.fst) := by
      rw [List.map_append, after_append]
      refine after_held (fun poll hmem => ?_) fun poll hmem => ?_
      · obtain ⟨entry, hentry, rfl⟩ := List.mem_map.1 hmem
        exact hbetween entry hentry
      · obtain ⟨entry, hentry, rfl⟩ := List.mem_map.1 hmem
        rw [hnext]
        exact hheld entry hentry
    rw [hdue, hkept, hcongested, ask_congested, hnext]
  · rw [backoff_after hp]
    exact ⟨Pacing.minInterval_le_wait hp _, Pacing.wait_le_maxInterval pacing _⟩

/-- Thirteen intervals of half a minute, with congestion in all of them but the last but one. -/
def spell : List Poll :=
  (List.range 13).map fun k => ⟨.ofSeconds (UInt64.ofNat (32 * (k + 1))), k ≠ 11⟩

/-- The third notification of an episode holds the fourth back by the longest wait, which no doubling of
the shortest one meets. -/
theorem notifications_paced_capped :
    let pacing : Pacing := ⟨.ofSeconds 32, .ofSeconds 100⟩
    let log := (start pacing).log spell
    let deadline := (Duration.ofSeconds 128).saturatingAdd (pacing.wait (sentInEpisode (log.take 4)))
    pacing.minInterval ≤ pacing.maxInterval ∧ (spell.Pairwise fun a b => a.now ≤ b.now) ∧
      log.map Prod.snd =
        [true, true, false, true, false, false, false, true, false, false, false, false, true] ∧
      sentInEpisode (log.take 4) = 3 ∧ deadline = .ofSeconds 228 ∧
      (∀ entry ∈ (log.drop 4).take 3, entry.1.now < deadline) ∧
      true = decide (deadline ≤ .ofSeconds 256) := by
  intro pacing log deadline
  have hp : pacing.minInterval ≤ pacing.maxInterval := by decide
  have hsorted : spell.Pairwise fun a b => a.now ≤ b.now := by decide
  obtain ⟨-, -, -, hepisode, -⟩ := notifications_paced hp hsorted
  have hheld : ∀ entry ∈ (log.drop 4).take 3, entry.1.now < deadline := by decide
  refine ⟨hp, hsorted, by decide, by decide, by decide, hheld, ?_⟩
  exact hepisode (log.take 3) ⟨.ofSeconds 128, true⟩ ((log.drop 4).take 3) ⟨.ofSeconds 256, true⟩ true
    (log.drop 8) (by decide) (by decide) rfl hheld

end Pacer

end CongestionRouting

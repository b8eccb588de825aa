import CongestionRouting.Proofs.Neighbor.Consistent
import CongestionRouting.Route.Selection

namespace CongestionRouting

namespace NeighborTable

variable {t : NeighborTable} {parent h : NeighborHandle}

/-- An entry that a detour around the parent can lead through. -/
structure Alternate (t : NeighborTable) (parent h : NeighborHandle) (entry : Neighbor) : Prop where
  neighbor_ne : h ≠ parent
  get?_eq : t.get? h = some entry
  routingParent : entry.routingParent = true

/-- The first alternate without congestion, in the order of the slots; or the last one, where all are
congested. -/
inductive Chosen (t : NeighborTable) (parent h : NeighborHandle) : Prop
  | clear {entry : Neighbor} (alternate : t.Alternate parent h entry)
      (uncongested : entry.congested = false)
      (first : ∀ g other, t.Alternate parent g other → g.index < h.index → other.congested = true)
  | congested {entry : Neighbor} (alternate : t.Alternate parent h entry)
      (all : ∀ g other, t.Alternate parent g other → other.congested = true)
      (last : ∀ g other, t.Alternate parent g other → g.index ≤ h.index)

theorem Chosen.alternate (hc : t.Chosen parent h) : ∃ entry, t.Alternate parent h entry := by
  cases hc with
  | clear halternate _ _ => exact ⟨_, halternate⟩
  | congested halternate _ _ => exact ⟨_, halternate⟩

namespace Orderly

variable (ht : t.Orderly)

include ht

/-- The handle at a position is that of the entry there. -/
theorem getElem?_handles {i : Nat} :
    t.handles[i]? = some h ↔ ∃ entry, t.entries[i]? = some entry ∧ t.get? h = some entry := by
  have hmap : t.handles[i]?.map t.get? = t.entries[i]?.map some := by
    rw [← List.getElem?_map, ht.map_handles, List.getElem?_map]
  constructor
  · intro hh
    rw [hh, Option.map_some] at hmap
    obtain ⟨entry, hentry, hg⟩ := Option.map_eq_some_iff.1 hmap.symm
    exact ⟨entry, hentry, hg.symm⟩
  · rintro ⟨entry, hentry, hg⟩
    rw [hentry, Option.map_some] at hmap
    obtain ⟨found, hfound, hsame⟩ := Option.map_eq_some_iff.1 hmap
    rw [hfound, ht.eq_of_address_eq hsame hg rfl]

end Orderly

end NeighborTable

namespace RandomSource

variable {γ : Type} [RandomSource γ]

def skip : Nat → γ → γ
  | 0, source => source
  | n + 1, source => skip n (next source).2

def word (source : γ) (j : Nat) : UInt32 := (next (skip j source)).1

end RandomSource

section Order

variable {handles : List NeighborHandle} {h : NeighborHandle}

/-- Of handles in the order of their slots the one that is found is the first. -/
theorem find?_eq_some_iff_first (ho : handles.Pairwise fun h g => h.index < g.index)
    (p : NeighborHandle → Bool) : handles.find? p = some h ↔
      h ∈ handles ∧ p h = true ∧ ∀ g ∈ handles, g.index < h.index → p g = false := by
  induction ho with
  | nil => simp
  | @cons head tail hhead _ ih =>
    by_cases hp : p head = true
    · rw [List.find?_cons_of_pos hp, Option.some.injEq]
      constructor
      · rintro rfl
        refine ⟨List.mem_cons_self, hp, fun g hg hlt => ?_⟩
        rcases List.mem_cons.1 hg with rfl | hg
        · exact absurd hlt (UInt32.lt_irrefl _)
        · exact absurd (hhead g hg) (UInt32.lt_asymm hlt)
      · rintro ⟨hmem, -, hfirst⟩
        rcases List.mem_cons.1 hmem with rfl | hmem
        · rfl
        · exact absurd (hfirst head List.mem_cons_self (hhead h hmem)) (by simp [hp])
    · rw [List.find?_cons_of_neg hp, ih, List.mem_cons]
      constructor
      · rintro ⟨hmem, hh, hfirst⟩
        refine ⟨.inr hmem, hh, fun g hg hlt => ?_⟩
        rcases List.mem_cons.1 hg with rfl | hg
        · exact Bool.eq_false_iff.2 hp
        · exact hfirst g hg hlt
      · rintro ⟨rfl | hmem, hh, hfirst⟩
        · exact absurd hh hp
        · exact ⟨hmem, hh, fun g hg => hfirst g (List.mem_cons_of_mem _ hg)⟩

theorem getLast?_eq_some_iff_last (ho : handles.Pairwise fun h g => h.index < g.index) :
    handles.getLast? = some h ↔ h ∈ handles ∧ ∀ g ∈ handles, g.index ≤ h.index := by
  constructor
  · intro hlast
    obtain ⟨front, rfl⟩ := List.getLast?_eq_some_iff.1 hlast
    refine ⟨by simp, fun g hg => ?_⟩
    rcases List.mem_append.1 hg with hg | hg
    · exact UInt32.le_of_lt ((List.pairwise_append.1 ho).2.2 g hg h (by simp))
    · rw [List.mem_singleton.1 hg]
      exact UInt32.le_refl _
  · rintro ⟨hmem, hlast⟩
    cases hl : handles.getLast? with
    | none =>
      rw [List.getLast?_eq_none_iff.1 hl] at hmem
      cases hmem
    | some last =>
      obtain ⟨front, rfl⟩ := List.getLast?_eq_some_iff.1 hl
      rcases List.mem_append.1 hmem with hfront | hsame
      · have hlt := (List.pairwise_append.1 ho).2.2 h hfront last (by simp)
        exact absurd (hlast last (by simp)) (UInt32.not_le.2 hlt)
      · rw [List.mem_singleton.1 hsame]

end Order

namespace Selection

variable {t : NeighborTable} {parent h : NeighborHandle} {entry : Neighbor}

theorem isCandidate_iff : isCandidate t parent h = true ↔ ∃ entry, t.Alternate parent h entry := by
  have hrouting : Neighborhood.isRoutingParent t h = (t.get? h).any Neighbor.routingParent := rfl
  simp only [isCandidate, hrouting, Bool.and_eq_true, decide_eq_true_eq, Option.any_eq_true]
  constructor
  · rintro ⟨hne, entry, hg, hentry⟩
    exact ⟨entry, hne, hg, hentry⟩
  · rintro ⟨entry, hne, hg, hentry⟩
    exact ⟨hne, entry, hg, hentry⟩

theorem isUncongestedCandidate_of_alternate (ha : t.Alternate parent h entry) :
    isUncongestedCandidate t parent h = !entry.congested := by
  have hcongested : Neighborhood.congested t h = (t.get? h).map Neighbor.congested := rfl
  rw [isUncongestedCandidate, isCandidate_iff.2 ⟨entry, ha⟩, hcongested, ha.get?_eq,
    Option.map_some, Bool.true_and]
  cases entry.congested <;> rfl

theorem isUncongestedCandidate_iff : isUncongestedCandidate t parent h = true ↔
    ∃ entry, t.Alternate parent h entry ∧ entry.congested = false := by
  constructor
  · intro hh
    obtain ⟨entry, halternate⟩ := isCandidate_iff.1 ((Bool.and_eq_true _ _).mp hh).1
    rw [isUncongestedCandidate_of_alternate halternate, Bool.not_eq_true'] at hh
    exact ⟨entry, halternate, hh⟩
  · rintro ⟨entry, halternate, huncongested⟩
    rw [isUncongestedCandidate_of_alternate halternate, huncongested]
    rfl

theorem firstUncongested_eq (t : NeighborTable) (parent : NeighborHandle) :
    firstUncongested t parent =
      ((t.handles.filter (isCandidate t parent)).find? (isUncongestedCandidate t parent)).or
        (t.handles.filter (isCandidate t parent)).getLast? :=
  rfl

section Certain

variable (ht : t.Orderly)

include ht

theorem mem_candidates_iff : h ∈ t.handles.filter (isCandidate t parent) ↔
    ∃ entry, t.Alternate parent h entry := by
  rw [List.mem_filter, isCandidate_iff, ht.mem_handles_iff]
  exact and_iff_right_of_imp fun ⟨entry, halternate⟩ => ⟨entry, halternate.get?_eq⟩

theorem firstUncongested_eq_some_iff : firstUncongested t parent = some h ↔ t.Chosen parent h := by
  have horder : (t.handles.filter (isCandidate t parent)).Pairwise fun h g => h.index < g.index :=
    ht.pairwise_handles.filter _
  have hcongested : ∀ {g entry}, t.Alternate parent g entry →
      (isUncongestedCandidate t parent g = false ↔ entry.congested = true) := fun halternate => by
    rw [isUncongestedCandidate_of_alternate halternate, Bool.not_eq_false']
  -- What is found is first, or there is nothing to be found and the last candidate is left.
  rw [firstUncongested_eq, Option.or_eq_some_iff, find?_eq_some_iff_first horder,
    getLast?_eq_some_iff_last horder, List.find?_eq_none]
  simp only [mem_candidates_iff ht, Bool.not_eq_true]
  constructor
  · rintro (⟨-, hh, hfirst⟩ | ⟨hall, ⟨entry, halternate⟩, hlast⟩)
    · obtain ⟨entry, halternate, huncongested⟩ := isUncongestedCandidate_iff.1 hh
      exact .clear halternate huncongested fun g other hother hlt =>
        (hcongested hother).1 (hfirst g ⟨other, hother⟩ hlt)
    · exact .congested halternate (fun g other hother => (hcongested hother).1 (hall g ⟨other, hother⟩))
        fun g other hother => hlast g ⟨other, hother⟩
  · rintro (⟨halternate, huncongested, hfirst⟩ | ⟨halternate, hall, hlast⟩)
    · exact .inl ⟨⟨_, halternate⟩, isUncongestedCandidate_iff.2 ⟨_, halternate, huncongested⟩,
        fun g ⟨other, hother⟩ hlt => (hcongested hother).2 (hfirst g other hother hlt)⟩
    · exact .inr ⟨fun g ⟨other, hother⟩ => (hcongested hother).2 (hall g other hother),
        ⟨_, halternate⟩, fun g ⟨other, hother⟩ => hlast g other hother⟩

theorem firstUncongested_eq_none_iff :
    firstUncongested t parent = none ↔ ∀ h entry, ¬t.Alternate parent h entry := by
  rw [firstUncongested_eq, Option.or_eq_none_iff, List.getLast?_eq_none_iff]
  constructor
  · rintro ⟨-, hnil⟩ h entry halternate
    have hmem := (mem_candidates_iff ht).2 ⟨entry, halternate⟩
    rw [hnil] at hmem
    cases hmem
  · intro hnone
    have hnil : t.handles.filter (isCandidate t parent) = [] :=
      List.eq_nil_iff_forall_not_mem.2 fun h hmem => by
        obtain ⟨entry, halternate⟩ := (mem_candidates_iff ht).1 hmem
        exact hnone h entry halternate
    rw [hnil]
    exact ⟨rfl, rfl⟩

end Certain

section Random

variable {γ : Type} [RandomSource γ] {attempts j : Nat} {random : γ}

def position (n : Nat) (random : γ) (j : Nat) : Nat :=
  (RandomSource.word random j).toNat * n / UInt32.size

/-- The entry at the position of a word is an alternate without congestion. -/
structure Hit (t : NeighborTable) (parent : NeighborHandle) (random : γ) (j : Nat)
    (h : NeighborHandle) : Prop where
  exists_entry : ∃ entry, t.entries[position t.entries.length random j]? = some entry ∧
    t.Alternate parent h entry ∧ entry.congested = false

/-- What comes of a random choice, and the source after it. -/
inductive Drawn (t : NeighborTable) (parent : NeighborHandle) (attempts : Nat) (random : γ) :
    Option NeighborHandle × γ → Prop
  | empty (hn : t.entries.length = 0) : Drawn t parent attempts random (none, random)
  | hit {j : Nat} {h : NeighborHandle} (hn : 0 < t.entries.length) (hj : j < attempts)
      (hit : Hit t parent random j h) (first : ∀ i < j, ∀ g, ¬Hit t parent random i g) :
      Drawn t parent attempts random (some h, RandomSource.skip (j + 1) random)
  | missed (hn : 0 < t.entries.length) (all : ∀ j < attempts, ∀ h, ¬Hit t parent random j h) :
      Drawn t parent attempts random (none, RandomSource.skip attempts random)

theorem position_lt {n : Nat} (hn : 0 < n) (random : γ) (j : Nat) : position n random j < n :=
  scaleWord_lt hn _

variable (ht : t.Orderly)

include ht

theorem hit_iff : Hit t parent random j h ↔
    (t.handles[position t.handles.length random j]?).filter (isUncongestedCandidate t parent) =
      some h := by
  rw [Option.filter_eq_some_iff, isUncongestedCandidate_iff, ht.length_handles]
  constructor
  · rintro ⟨entry, hentry, halternate, huncongested⟩
    exact ⟨ht.getElem?_handles.2 ⟨entry, hentry, halternate.get?_eq⟩, entry, halternate, huncongested⟩
  · rintro ⟨hh, entry, halternate, huncongested⟩
    obtain ⟨found, hfound, hg⟩ := ht.getElem?_handles.1 hh
    obtain rfl : found = entry := Option.some.inj (hg.symm.trans halternate.get?_eq)
    exact ⟨found, hfound, halternate, huncongested⟩

theorem drawn_drawUncongested (hn : 0 < t.entries.length) (attempts : Nat) (random : γ) :
    Drawn t parent attempts random (drawUncongested t parent t.handles attempts random) := by
  induction attempts generalizing random with
  | zero => exact .missed hn fun j hj => absurd hj (Nat.not_lt_zero j)
  | succ attempts ih =>
    -- The word at `j + 1` is the one at `j` of the source that follows.
    have hnext : ∀ {j h}, Hit t parent random (j + 1) h ↔
        Hit t parent (RandomSource.next random).2 j h := ⟨fun ⟨hh⟩ => ⟨hh⟩, fun ⟨hh⟩ => ⟨hh⟩⟩
    have hdraw : drawBelow t.handles.length random =
        (position t.handles.length random 0, (RandomSource.next random).2) := rfl
    rw [drawUncongested, hdraw]
    cases hfound : (t.handles[position t.handles.length random 0]?).filter
        (isUncongestedCandidate t parent) with
    | some h =>
      have hhit : Hit t parent random 0 h := (hit_iff ht).2 hfound
      simp only [hfound]
      exact .hit hn (Nat.succ_pos _) hhit fun i hi => absurd hi (Nat.not_lt_zero i)
    | none =>
      have hmiss : ∀ g, ¬Hit t parent random 0 g := fun g hg =>
        absurd ((hit_iff ht).1 hg) (by rw [hfound]; exact nofun)
      simp only [hfound]
      have hrest := ih (RandomSource.next random).2
      generalize drawUncongested t parent t.handles attempts (RandomSource.next random).2 = result
        at hrest ⊢
      cases hrest with
      | empty hzero => exact absurd hzero (Nat.ne_of_gt hn)
      | @hit j h _ hj hhit hfirst =>
        refine .hit hn (Nat.succ_lt_succ hj) (hnext.2 hhit) fun i hi g hg => ?_
        cases i with
        | zero => exact hmiss g hg
        | succ i => exact hfirst i (Nat.lt_of_succ_lt_succ hi) g (hnext.1 hg)
      | missed _ hall =>
        refine .missed hn fun i hi g hg => ?_
        cases i with
        | zero => exact hmiss g hg
        | succ i => exact hall i (Nat.lt_of_succ_lt_succ hi) g (hnext.1 hg)

/-- A random choice draws until an attempt hits, or until none is left; in an empty table it does not
draw. -/
theorem drawn_select (attempts : UInt8) (random : γ) :
    Drawn t parent attempts.toNat random (select (.randomized attempts) t parent random) := by
  have hneighbors : Neighborhood.neighbors t = t.handles := rfl
  have hlength := ht.length_handles
  rw [select, hneighbors]
  cases hh : t.handles with
  | nil =>
    rw [hh] at hlength
    exact .empty hlength.symm
  | cons h handles =>
    simp only
    rw [hh] at hlength
    have hn : 0 < t.entries.length := by
      rw [← hlength]
      exact Nat.succ_pos _
    have hdrawn : Drawn t parent attempts.toNat random
        (drawUncongested t parent t.handles attempts.toNat random) :=
      drawn_drawUncongested ht hn attempts.toNat random
    rwa [hh] at hdrawn

end Random

end Selection

end CongestionRouting

import CongestionRouting.Proofs.Session.SharedRoutes
import Mathlib

namespace CongestionRouting

structure Occurrence where
  event : SessionEvent
  answer : Answer
  deriving DecidableEq

namespace Occurrence

/-- The end of an interval. A tick that is not answered by a report is none. -/
def endsInterval : Occurrence → Bool
  | ⟨.agent .tick, .report (some _)⟩ => true
  | _ => false

def packets : Occurrence → Nat
  | ⟨.agent (.count (.received n)), _⟩ => n
  | _ => 0

/-- The count in a report that was accepted. -/
def announced : Occurrence → Nat
  | ⟨.agent (.receiveReport _ _), .count (some n)⟩ => n.toNat
  | _ => 0

def enters (address : Address) : Occurrence → Bool
  | ⟨.host (.insertNeighbor entered _), .handle (some _)⟩ => entered = address
  | _ => false

def signals (address : Address) : Occurrence → Bool
  | ⟨.agent (.signal sender), _⟩ => sender = address
  | _ => false

def installs : Occurrence → Bool
  | ⟨.agent (.signal _), .activation (some activation)⟩ => activation.isInstalled
  | _ => false

end Occurrence

/-- What happened, the last in front. -/
abbrev History := List Occurrence

namespace History

/-- The part of the past that belongs to the interval under way. -/
def current (past : History) : History := past.takeWhile fun o => !o.endsInterval

def packets (past : History) : Nat := (past.current.map Occurrence.packets).sum

def announced (past : History) : Nat := (past.current.map Occurrence.announced).sum

/-- Whether a signal with that address came in this interval, and after the last neighbor with that
address was entered. -/
def heard (past : History) (address : Address) : Bool :=
  (past.current.takeWhile fun o => !o.enters address).any (Occurrence.signals address)

/-- The intervals that ended since a detour was installed last. -/
def stay (past : History) : Nat :=
  (past.takeWhile fun o => !o.installs).countP Occurrence.endsInterval

variable {past : History} {o : Occurrence}

theorem current_cons (o : Occurrence) (past : History) :
    current (o :: past) = if o.endsInterval then [] else o :: past.current := by
  unfold current
  rw [List.takeWhile_cons]
  cases o.endsInterval <;> rfl

theorem packets_cons (o : Occurrence) (past : History) :
    packets (o :: past) = if o.endsInterval then 0 else o.packets + past.packets := by
  unfold packets
  rw [current_cons]
  cases o.endsInterval <;> simp

theorem announced_cons (o : Occurrence) (past : History) :
    announced (o :: past) = if o.endsInterval then 0 else o.announced + past.announced := by
  unfold announced
  rw [current_cons]
  cases o.endsInterval <;> simp

theorem heard_cons (o : Occurrence) (past : History) (address : Address) :
    heard (o :: past) address =
      (!o.endsInterval && !o.enters address && (o.signals address || past.heard address)) := by
  unfold heard
  rw [current_cons]
  cases o.endsInterval with
  | true => simp
  | false => cases he : o.enters address <;> simp [he]

theorem stay_cons (o : Occurrence) (past : History) :
    stay (o :: past) = if o.installs then 0 else past.stay + o.endsInterval.toNat := by
  unfold stay
  rw [List.takeWhile_cons]
  cases o.installs with
  | true => rfl
  | false => cases he : o.endsInterval <;> simp [he]

end History

namespace Session

variable {ν : Type} [TableHolder ν]

def history (s : Session ν) (past : History) : List SessionEvent → History
  | [] => past
  | event :: events => (s.step event).2.history (⟨event, (s.step event).1⟩ :: past) events

theorem run_append (s : Session ν) (events later : List SessionEvent) :
    s.run (events ++ later) = (s.run events).run later :=
  List.foldl_append

theorem history_append (s : Session ν) (past : History) (events later : List SessionEvent) :
    s.history past (events ++ later) = (s.run events).history (s.history past events) later := by
  induction events generalizing s past with
  | nil => rfl
  | cons event events ih => exact ih _ _

theorem suffix_history (s : Session ν) (past : History) (events : List SessionEvent) :
    past <:+ s.history past events := by
  induction events generalizing s past with
  | nil => exact List.suffix_refl past
  | cons event events ih => exact (List.suffix_cons _ past).trans (ih _ _)

end Session

end CongestionRouting

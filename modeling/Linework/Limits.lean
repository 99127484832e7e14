import Linework.Event

/-!
# Limits of a run

A run may be limited in the statements it executes, in time and in calls within calls. The budget
counts what has been used. A step that is refused counts as a step too. The counter of steps has 64
bits and begins again at zero when they are used up. Time is shown by a watch, which is looked at
once for each step.
-/

namespace Linework

/-- The limits of a run. -/
structure Limits where
  maxSteps : Option UInt64
  /-- In nanoseconds. -/
  timeout : Option Nat
  maxCallDepth : Nat
  deriving DecidableEq, Repr

/-- No limit but the one on calls within calls, which always exists. -/
def Limits.default : Limits := ⟨none, none, 128⟩

/-- The time since the beginning of a run, in nanoseconds, as it is shown at each of its steps. -/
abbrev Watch := Nat → Nat

/-- What a run has used. -/
structure Budget where
  /-- Steps that were let through. -/
  granted : Nat
  /-- Steps that were refused. -/
  refused : Nat
  /-- Script functions that are running. -/
  depth : Nat
  deriving DecidableEq, Repr

namespace Budget

/-- Nothing used. -/
def empty : Budget := ⟨0, 0, 0⟩

/-- All steps so far. -/
def ticks (b : Budget) : Nat := b.granted + b.refused

/-- What the counter of steps shows. -/
def steps (b : Budget) : UInt64 := UInt64.ofNat b.ticks

/-- The counter is right as long as its 64 bits are enough. -/
theorem toNat_steps {b : Budget} (h : b.ticks < UInt64.size) : b.steps.toNat = b.ticks :=
  UInt64.toNat_ofNat_of_lt' h

/-- The counter never shows too much. -/
theorem toNat_steps_le (b : Budget) : b.steps.toNat ≤ b.ticks := by
  rw [steps, UInt64.toNat_ofNat']
  exact Nat.mod_le _ _

/-- Why a step that brings the budget to `b` has to be refused. -/
def refusal? (limits : Limits) (watch : Watch) (b : Budget) : Option Cancellation :=
  match limits.maxSteps.filter (· < b.steps) with
  | some limit => some (.stepLimit limit)
  | none => (limits.timeout.filter (· < watch b.ticks)).map .timeLimit

/-- One more step, and why it is refused if it is. -/
def spend (limits : Limits) (watch : Watch) (b : Budget) : Option Cancellation × Budget :=
  match refusal? limits watch { b with granted := b.granted + 1 } with
  | none => (none, { b with granted := b.granted + 1 })
  | some reason => (some reason, { b with refused := b.refused + 1 })

/-- Every step counts, whether it is let through or not. -/
theorem ticks_spend (limits : Limits) (watch : Watch) (b : Budget) :
    (spend limits watch b).2.ticks = b.ticks + 1 := by
  unfold spend ticks
  split <;> simp only <;> omega

/-- A step leaves the running functions alone. -/
theorem depth_spend (limits : Limits) (watch : Watch) (b : Budget) :
    (spend limits watch b).2.depth = b.depth := by
  unfold spend
  split <;> rfl

/-- One more function running, if the limit allows it. -/
def openCall (limits : Limits) (b : Budget) : Except Cancellation Budget :=
  if b.depth < limits.maxCallDepth then .ok { b with depth := b.depth + 1 }
  else .error (.callDepth limits.maxCallDepth)

/-- One function less running. -/
def closeCall (b : Budget) : Budget := { b with depth := b.depth - 1 }

/-- Closing a call takes back exactly what opening it has paid. -/
theorem closeCall_of_openCall {limits : Limits} {b c : Budget} (h : openCall limits b = .ok c) :
    c.closeCall = b := by
  unfold openCall at h
  split at h
  · cases h
    simp [closeCall]
  · cases h

end Budget

end Linework

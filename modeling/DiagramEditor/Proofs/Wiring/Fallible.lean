import DiagramEditor.Proofs.Board.History
import DiagramEditor.Wiring.Memory

/-! The library in memory behind a wrapper that makes calls fail as a plan says, and what
surroundings in front of a library in memory do to it whatever wrapper stands between. -/
namespace DiagramEditor

namespace Wiring

structure Fallible where
  memory : Memory
  made : Nat

namespace Fallible

def start : Fallible := ⟨.empty, 0⟩

/-- The `n`th call fails without effect if the plan has a fault for it. -/
def call (plan : Nat → Option Fault) : Library Fallible := fun c s =>
  match plan s.made with
  | some f => (.error f, { s with made := s.made + 1 })
  | none =>
    let (answer, memory) := Memory.call c s.memory
    (answer, ⟨memory, s.made + 1⟩)

def surroundings (plan : Nat → Option Fault) : Surroundings Fallible where
  call := call plan
  note _ s := s

end Fallible

end Wiring

open Wiring (Memory Fallible)

variable {σ : Type}

/-- A call reaches the library in memory or fails without effect on it, and notes pass it by. -/
structure Surroundings.Fronts (w : Surroundings σ) (memory : σ → Memory) : Prop where
  note : ∀ n s, memory (w.note n s) = memory s
  refused : ∀ {c s f s'}, w.call c s = (.error f, s') → memory s' = memory s
  accepted : ∀ {c s s'}, w.call c s = (.ok (), s') → Memory.call c (memory s) = (.ok (), memory s')

structure Surroundings.Carries (w : Surroundings σ) (memory : σ → Memory) : Prop
    extends w.Fronts memory where
  carried : ∀ {c s f s'}, w.call c s = (.error f, s') →
    Memory.call c (memory s) = (.error f, memory s)

theorem Surroundings.Fronts.memory_eq {w : Surroundings σ} {memory : σ → Memory}
    (hw : w.Fronts memory) {c : Wiring.Call} {s s' : σ} {m : Memory}
    (hc : w.call c s = (.ok (), s')) (h : Memory.call c (memory s) = (.ok (), m)) :
    memory s' = m := by
  rw [hw.accepted hc] at h
  exact (Prod.mk.inj h).2

theorem Surroundings.Fronts.recorded {w : Surroundings σ} {memory : σ → Memory}
    (hw : w.Fronts memory) : w.recorded.Fronts fun s => memory s.inner where
  note := fun n s => hw.note n s.inner
  refused := fun h => hw.refused (recorded_call h).1
  accepted := fun h => hw.accepted (recorded_call h).1

theorem Surroundings.Carries.recorded {w : Surroundings σ} {memory : σ → Memory}
    (hw : w.Carries memory) : w.recorded.Carries fun s => memory s.inner where
  toFronts := hw.toFronts.recorded
  carried := fun h => hw.carried (recorded_call h).1

namespace Wiring

theorem Memory.call_refused {c : Call} {m m' : Memory} {f : Fault}
    (h : Memory.call c m = (.error f, m')) : m' = m := by
  cases c with
  | connect id s t =>
    simp only [Memory.call] at h
    split at h
    · exact (Prod.mk.inj h).2.symm
    · cases h
  | _ => cases h

theorem Fallible.fronts (plan : Nat → Option Fault) :
    (Fallible.surroundings plan).Fronts Fallible.memory where
  note := fun _ _ => rfl
  refused := by
    intro c s f s' h
    simp only [surroundings, call] at h
    split at h
    · obtain ⟨-, rfl⟩ := Prod.mk.inj h
      rfl
    · obtain ⟨hf, rfl⟩ := Prod.mk.inj h
      exact Memory.call_refused (Prod.ext hf rfl)
  accepted := by
    intro c s s' h
    simp only [surroundings, call] at h
    split at h
    · cases h
    · obtain ⟨hf, rfl⟩ := Prod.mk.inj h
      exact Prod.ext hf rfl

theorem Fallible.carries {plan : Nat → Option Fault} (hp : ∀ n, plan n = none) :
    (Fallible.surroundings plan).Carries Fallible.memory where
  toFronts := Fallible.fronts plan
  carried := by
    intro c s f s' h
    simp only [surroundings, call, hp] at h
    have hf := (Prod.mk.inj h).1
    exact Prod.ext hf (Memory.call_refused (Prod.ext hf rfl))

end Wiring

end DiagramEditor

/-!
Subscriber lists. Subscriptions are numbered in the order they are made and are never renumbered;
an event reaches the subscribers in that order.
-/
namespace DiagramEditor

structure Bus (η : Type) where
  live : List (Nat × η)
  next : Nat

namespace Bus

variable {η : Type}

def empty : Bus η := ⟨[], 0⟩

def subscribe (b : Bus η) (who : η) : Nat × Bus η :=
  (b.next, ⟨b.live ++ [(b.next, who)], b.next + 1⟩)

/-- Whether a subscription was live, and the bus without it. -/
def unsubscribe (b : Bus η) (id : Nat) : Bool × Bus η :=
  (b.live.any fun s => s.1 == id, { b with live := b.live.filter fun s => s.1 != id })

def audience (b : Bus η) : List η :=
  b.live.map (·.2)

def clear (b : Bus η) : Bus η := { b with live := [] }

def count (b : Bus η) : Nat := b.live.length

def publish (call : η → ε → σ → σ) (e : ε) (b : Bus η) (s : σ) : σ :=
  b.audience.foldl (fun s who => call who e s) s

inductive Op (η ε : Type)
  | subscribe (who : η)
  | unsubscribe (id : Nat)
  | clear
  | publish (e : ε)

inductive Reply
  | subscribed (id : Nat)
  | unsubscribed (wasLive : Bool)
  | done
  deriving DecidableEq, Repr

def step (call : η → ε → σ → σ) : Op η ε → Bus η → σ → Reply × Bus η × σ
  | .subscribe who, b, s =>
    let (id, b) := b.subscribe who
    (.subscribed id, b, s)
  | .unsubscribe id, b, s =>
    let (wasLive, b) := b.unsubscribe id
    (.unsubscribed wasLive, b, s)
  | .clear, b, s => (.done, b.clear, s)
  | .publish e, b, s => (.done, b, b.publish call e s)

end Bus

end DiagramEditor

import DiagramEditor.Proofs.Board.History
import DiagramEditor.Proofs.Browser.Adapter
import DiagramEditor.Proofs.Wiring.Agreement

/-! The registry of a page refines the library in memory: after any calls, whichever of them the
page lets fail, it holds what the library in memory holds which was given the calls that
succeeded. -/
namespace DiagramEditor.Browser

open Wiring (Call Memory)

def Registry.enter (r : Registry Value) (v : Value) : Call → Registry Value
  | .setContainer _ => .empty
  | .makeDraggable item _ => r.addDraggable item
  | .addEndpoint e => r.addEndpoint e.id e.item v
  | .removeElement item => r.forget item
  | .moveItem _ _ | .connect _ _ _ => r

namespace Adapter

variable {π ν : Type}

structure Turn (π : Type) where
  call : Call
  before : Adapter π
  answer : Except Fault Unit
  invocations : List Invocation
  after : Adapter π

def turn (h : Host π ν) (c : Call) (a : Adapter π) : Turn π :=
  let o := library h.observed c ⟨⟨a.page, []⟩, a.registry⟩
  ⟨c, a, o.1, o.2.page.invocations, ⟨o.2.page.page, o.2.registry⟩⟩

theorem library_turn (h : Host π ν) (c : Call) (a : Adapter π) :
    library h c a = ((turn h c a).answer, (turn h c a).after) :=
  library_seen h.observed_shows ⟨⟨a.page, []⟩, a.registry⟩ c

/-- An endpoint is added for an item, under this handle of the drawing library. -/
structure Turn.Hands (t : Turn π) (id : EndpointId) (item : ItemId) (v : Value) : Prop where
  call : ∃ e, t.call = .addEndpoint e ∧ e.id = id ∧ e.item = item
  answer : t.answer = .ok ()
  invocations : ∃ arguments, t.invocations = [⟨"addEndpoint", arguments, .ok v⟩]

section Turn
variable (h : Host π ν) {o o' : Adapter (Observed π)}

theorem invoke_observed {method : String} {arguments : List Value}
    {answer : Except Fault Value} (he : invoke h.observed method arguments o = (answer, o')) :
    o'.registry = o.registry ∧ ∃ outcome,
      o'.page.invocations = o.page.invocations ++ [⟨method, arguments, outcome⟩] ∧
      ∀ v, answer = .ok v → outcome = .ok v := by
  simp only [invoke] at he
  split at he
  · next f page hw =>
    obtain ⟨rfl, rfl⟩ := Prod.mk.inj he
    obtain ⟨-, rfl⟩ := Prod.mk.inj hw
    refine ⟨rfl, _, rfl, fun v hv => ?_⟩
    cases hv
  · next w page hw =>
    obtain ⟨rfl, rfl⟩ := Prod.mk.inj he
    obtain ⟨houtcome, rfl⟩ := Prod.mk.inj hw
    refine ⟨rfl, _, rfl, fun v hv => ?_⟩
    obtain rfl := Except.ok.inj hv
    exact houtcome

theorem setStyles_observed {n : ν} {styles : List (String × String)} {answer : Except Fault Unit}
    (he : setStyles h.observed n styles o = (answer, o')) :
    o'.registry = o.registry ∧ o'.page.invocations = o.page.invocations := by
  induction styles generalizing o with
  | nil =>
    obtain ⟨-, rfl⟩ := Prod.mk.inj he
    exact ⟨rfl, rfl⟩
  | cons style rest ih =>
    simp only [setStyles] at he
    split at he
    · next v page hw =>
      obtain ⟨-, rfl⟩ := Prod.mk.inj he
      obtain ⟨-, rfl⟩ := Prod.mk.inj hw
      exact ⟨rfl, rfl⟩
    · next page hw =>
      obtain ⟨-, rfl⟩ := Prod.mk.inj hw
      have hrest := ih he
      exact hrest

theorem addEndpoint_cases (e : Endpoint) (a : Adapter π) :
    let t := turn h (.addEndpoint e) a
    ((∃ f, t.answer = .error f) ∧ t.after.registry = a.registry) ∨
      ∃ v, t.Hands e.id e.item v ∧
        t.after.registry = a.registry.addEndpoint e.id e.item v := by
  intro t
  have ht : t = turn h (.addEndpoint e) a := rfl
  simp only [turn, library, addEndpoint] at ht
  split at ht
  · rw [ht]
    exact Or.inl ⟨⟨_, rfl⟩, rfl⟩
  · next options page hp =>
    have hpage : page.invocations = [] := by
      obtain ⟨-, rfl⟩ := Prod.mk.inj hp
      rfl
    split at ht
    · next he =>
      obtain ⟨hreg, -⟩ := invoke_observed h he
      rw [ht]
      exact Or.inl ⟨⟨_, rfl⟩, hreg⟩
    · next handle o' he =>
      obtain ⟨hreg, outcome, hinvoked, hhandle⟩ := invoke_observed h he
      obtain rfl := hhandle handle rfl
      rw [hpage, List.nil_append] at hinvoked
      rw [ht]
      refine Or.inr ⟨handle, ⟨⟨e, rfl, rfl, rfl⟩, rfl, _, hinvoked⟩, ?_⟩
      exact congrArg (fun r : Registry Value => r.addEndpoint e.id e.item handle) hreg

theorem turn_cases (c : Call) (a : Adapter π) :
    let t := turn h c a
    ((∃ f, t.answer = .error f) ∧ t.after.registry = a.registry) ∨
      (t.answer = .ok () ∧ ∃ v, t.after.registry = a.registry.enter v c ∧
        ∀ e, c = .addEndpoint e → t.Hands e.id e.item v) := by
  intro t
  cases c with
  | setContainer e =>
    simp only [t, turn, library, setContainer]
    split
    · exact Or.inl ⟨⟨_, rfl⟩, rfl⟩
    · split
      · next he =>
        exact Or.inl ⟨⟨_, rfl⟩, (invoke_observed h he).1⟩
      · exact Or.inr ⟨rfl, .undefined, rfl, fun _ hc => Call.noConfusion hc⟩
  | makeDraggable item box =>
    simp only [t, turn, library, makeDraggable]
    split
    · exact Or.inl ⟨⟨_, rfl⟩, rfl⟩
    · split
      · next he => exact Or.inl ⟨⟨_, rfl⟩, (setStyles_observed h he).1⟩
      · next he =>
        refine Or.inr ⟨rfl, .undefined, ?_, fun _ hc => Call.noConfusion hc⟩
        exact congrArg (fun r : Registry Value => r.addDraggable item) (setStyles_observed h he).1
  | moveItem item p =>
    simp only [t, turn, library, moveItem]
    split
    · exact Or.inl ⟨⟨_, rfl⟩, rfl⟩
    · split
      · next he => exact Or.inl ⟨⟨_, rfl⟩, (setStyles_observed h he).1⟩
      · next he =>
        have hstyled := (setStyles_observed h he).1
        split
        · split
          · next he' => exact Or.inl ⟨⟨_, rfl⟩, (invoke_observed h he').1.trans hstyled⟩
          · next he' =>
            exact Or.inr ⟨rfl, .undefined, (invoke_observed h he').1.trans hstyled,
              fun _ hc => Call.noConfusion hc⟩
        · exact Or.inr ⟨rfl, .undefined, hstyled, fun _ hc => Call.noConfusion hc⟩
  | addEndpoint e =>
    rcases addEndpoint_cases h e a with hfailed | ⟨handle, hhands, hreg⟩
    · exact Or.inl hfailed
    · refine Or.inr ⟨hhands.answer, handle, hreg, fun e' hc => ?_⟩
      obtain rfl := Call.addEndpoint.inj hc
      exact hhands
  | connect id source target =>
    simp only [t, turn, library, connect]
    split
    · exact Or.inl ⟨⟨_, rfl⟩, rfl⟩
    · split
      · exact Or.inl ⟨⟨_, rfl⟩, rfl⟩
      · split
        · next he => exact Or.inl ⟨⟨_, rfl⟩, (invoke_observed h he).1⟩
        · next he =>
          split
          · exact Or.inr ⟨rfl, .undefined, (invoke_observed h he).1,
              fun _ hc => Call.noConfusion hc⟩
          · exact Or.inl ⟨⟨_, rfl⟩, (invoke_observed h he).1⟩
  | removeElement item =>
    simp only [t, turn, library, removeElement]
    split
    · next he => exact Or.inl ⟨⟨_, rfl⟩, (invoke_observed h he).1⟩
    · next he =>
      refine Or.inr ⟨rfl, .undefined, ?_, fun _ hc => Call.noConfusion hc⟩
      exact congrArg (fun r : Registry Value => r.forget item) (invoke_observed h he).1

end Turn

structure History (π : Type) where
  turns : List (Turn π)
  registry : Registry Value

def extend (h : Host π ν) (o : History π) (x : π × Call) : History π :=
  let t := turn h x.2 ⟨x.1, o.registry⟩
  ⟨o.turns ++ [t], t.after.registry⟩

def run (h : Host π ν) (xs : List (π × Call)) : History π := xs.foldl (extend h) ⟨[], .empty⟩

def Turn.feed (m : Memory) (t : Turn π) : Memory :=
  match t.answer with
  | .ok () => (Memory.call t.call m).2
  | .error _ => m

def fed (ts : List (Turn π)) : Memory := ts.foldl Turn.feed .empty

/-- A registry holds what a library in memory holds, and for each endpoint the handle that it was
last added under. -/
structure Refines (r : Registry Value) (m : Memory) (ts : List (Turn π)) : Prop where
  draggables : ∀ id, id ∈ r.draggables ↔ ∃ box, m.draggables.get? id = some box
  owners : r.endpoints.mapValues (·.1) = m.endpoints.mapValues (·.item)
  handles : ∀ id item v, (id, item, v) ∈ r.endpoints →
    Since (fun t => t.Hands id item v) (fun t => ∃ item v, t.Hands id item v) ts

section Step
variable {r : Registry Value} {m : Memory} {ts : List (Turn π)}

theorem mem_addDraggable {id item : ItemId} :
    id ∈ (r.addDraggable item).draggables ↔ id = item ∨ id ∈ r.draggables := by
  rw [Registry.addDraggable]
  split
  · next hin =>
    refine ⟨Or.inr, fun h => ?_⟩
    rcases h with rfl | h
    · exact List.contains_iff_mem.mp hin
    · exact h
  · rw [List.mem_append, List.mem_singleton, or_comm]

theorem addDraggable_endpoints (r : Registry Value) (item : ItemId) :
    (r.addDraggable item).endpoints = r.endpoints := by
  rw [Registry.addDraggable]
  split
  · rfl
  · rfl

theorem Refines.enter (hr : Refines r m ts) (c : Call) (v : Value) :
    (∀ id, id ∈ (r.enter v c).draggables ↔
        ∃ box, (Memory.call c m).2.draggables.get? id = some box) ∧
      (r.enter v c).endpoints.mapValues (·.1) =
        (Memory.call c m).2.endpoints.mapValues (·.item) := by
  cases c with
  | setContainer e =>
    refine ⟨fun id => ?_, rfl⟩
    simp [Registry.enter, Registry.empty, Memory.call, Memory.empty]
  | makeDraggable item box =>
    refine ⟨fun id => ?_, (congrArg _ (addDraggable_endpoints r item)).trans hr.owners⟩
    simp only [Registry.enter, mem_addDraggable, Memory.call, Table.get?_set]
    by_cases hid : id = item
    · simp [hid]
    · simp [hid, hr.draggables id]
  | moveItem item p => exact ⟨hr.draggables, hr.owners⟩
  | addEndpoint e =>
    refine ⟨hr.draggables, ?_⟩
    simp only [Registry.enter, Registry.addEndpoint, Memory.call, Table.mapValues_set, hr.owners]
  | connect id s t =>
    have hkept : (Memory.call (.connect id s t) m).2.draggables = m.draggables ∧
        (Memory.call (.connect id s t) m).2.endpoints = m.endpoints := by
      simp only [Memory.call]
      split
      · exact ⟨rfl, rfl⟩
      · next m' hm =>
        obtain ⟨_, _, -, -, -, -, -, -, rfl⟩ := Memory.connect_ok hm
        exact ⟨rfl, rfl⟩
    rw [hkept.1, hkept.2]
    exact ⟨hr.draggables, hr.owners⟩
  | removeElement item =>
    refine ⟨fun id => ?_, ?_⟩
    · simp only [Registry.enter, Registry.forget, Memory.call, Memory.removeElement,
        Table.get?_erase, List.mem_filter, bne_iff_ne]
      by_cases hid : id = item
      · simp [hid]
      · simp [hid, hr.draggables id]
    · have hkept := congrArg (List.filter fun e => e.2 != item) hr.owners
      have hr := Table.mapValues_filter (·.1) r.endpoints (· != item)
      have hm := Table.mapValues_filter (·.item) m.endpoints (· != item)
      exact hr.trans (hkept.trans hm.symm)

theorem mem_enter {c : Call} {v w : Value} {id : EndpointId} {item : ItemId}
    (he : (id, item, w) ∈ (r.enter v c).endpoints) :
    (∃ e, c = .addEndpoint e ∧ e.id = id ∧ e.item = item ∧ w = v) ∨
      ((id, item, w) ∈ r.endpoints ∧ ∀ e, c = .addEndpoint e → e.id ≠ id) := by
  cases c with
  | setContainer e => exact absurd he List.not_mem_nil
  | makeDraggable other box =>
    rw [Registry.enter, addDraggable_endpoints] at he
    exact Or.inr ⟨he, fun _ hc => Call.noConfusion hc⟩
  | moveItem other p => exact Or.inr ⟨he, fun _ hc => Call.noConfusion hc⟩
  | addEndpoint e =>
    rcases Table.mem_set.mp he with ⟨he, hne⟩ | he
    · refine Or.inr ⟨he, fun e' hc hid => ?_⟩
      obtain rfl := Call.addEndpoint.inj hc
      exact hne hid.symm
    · obtain ⟨hid, he⟩ := Prod.mk.inj he
      obtain ⟨hitem, hw⟩ := Prod.mk.inj he
      exact Or.inl ⟨e, rfl, hid.symm, hitem.symm, hw⟩
  | connect cid s t => exact Or.inr ⟨he, fun _ hc => Call.noConfusion hc⟩
  | removeElement other =>
    exact Or.inr ⟨(List.mem_filter.mp he).1, fun _ hc => Call.noConfusion hc⟩

theorem Refines.step (hr : Refines r m ts) (h : Host π ν) (page : π) (c : Call) :
    let t := turn h c ⟨page, r⟩
    Refines t.after.registry (t.feed m) (ts ++ [t]) := by
  intro t
  rcases turn_cases h c ⟨page, r⟩ with ⟨⟨f, hf⟩, hreg⟩ | ⟨hok, v, hreg, hhands⟩
  · have hfed : t.feed m = m := by
      rw [Turn.feed, hf]
    rw [hreg, hfed]
    refine ⟨hr.draggables, hr.owners, fun id item w he => ?_⟩
    refine since_concat.mpr (Or.inr ⟨hr.handles id item w he, fun ⟨_, _, hq⟩ => ?_⟩)
    cases hf.symm.trans hq.answer
  · have hfed : t.feed m = (Memory.call c m).2 := by
      rw [Turn.feed, hok]
      rfl
    rw [hreg, hfed]
    obtain ⟨hdraggables, howners⟩ := hr.enter c v
    refine ⟨hdraggables, howners, fun id item w he => ?_⟩
    rcases mem_enter he with ⟨e, hc, rfl, rfl, rfl⟩ | ⟨he, hne⟩
    · exact since_concat.mpr (Or.inl (hhands e hc))
    · refine since_concat.mpr (Or.inr ⟨hr.handles id item w he, fun ⟨_, _, hq⟩ => ?_⟩)
      obtain ⟨e, hcall, hid, -⟩ := hq.call
      exact hne e hcall hid

end Step

theorem run_concat (h : Host π ν) (xs : List (π × Call)) (x : π × Call) :
    run h (xs ++ [x]) = extend h (run h xs) x := by
  rw [run, List.foldl_append]
  rfl

theorem run_turns (h : Host π ν) (xs : List (π × Call)) : ∀ t ∈ (run h xs).turns,
    library h t.call t.before = (t.answer, t.after) ∧
      ∀ f, t.answer = .error f → t.after.registry = t.before.registry := by
  induction xs using List.reverseRecOn with
  | nil => exact fun t ht => absurd ht List.not_mem_nil
  | append_singleton xs x ih =>
    rw [run_concat]
    intro t ht
    rcases List.mem_append.mp ht with ht | ht
    · exact ih t ht
    · rw [List.mem_singleton.mp ht]
      refine ⟨library_turn h x.2 _, fun f hf => ?_⟩
      rcases turn_cases h x.2 ⟨x.1, (run h xs).registry⟩ with ⟨-, hreg⟩ | ⟨hok, -⟩
      · exact hreg
      · cases hok.symm.trans hf

theorem run_refines (h : Host π ν) (xs : List (π × Call)) :
    Refines (run h xs).registry (fed (run h xs).turns) (run h xs).turns := by
  induction xs using List.reverseRecOn with
  | nil => exact ⟨fun id => by simp [run, fed, Registry.empty, Memory.empty], rfl,
      fun id item v he => absurd he List.not_mem_nil⟩
  | append_singleton xs x ih =>
    have hfed : fed (extend h (run h xs) x).turns =
        (turn h x.2 ⟨x.1, (run h xs).registry⟩).feed (fed (run h xs).turns) := by
      rw [fed, extend, List.foldl_append]
      rfl
    rw [run_concat, hfed]
    exact ih.step h x.1 x.2

/-- Of the two ends of a connection, this one is the first that has no owner. -/
def Misses (owners : Table EndpointId ItemId) (source target e : EndpointId) : Prop :=
  (owners.get? source = none ∧ e = source) ∨
    (owners.get? source ≠ none ∧ owners.get? target = none ∧ e = target)

theorem invoke_fault {h : Host π ν} {method : String} {arguments : List Value} {a a' : Adapter π}
    {f : Fault} (he : invoke h method arguments a = (.error f, a')) :
    ∃ detail, f = .library detail := by
  simp only [invoke] at he
  split at he
  · next g page _ =>
    obtain rfl := Except.error.inj (Prod.mk.inj he).1
    cases g with
    | notCallable => exact ⟨_, rfl⟩
    | threw v => exact ⟨_, rfl⟩
  · cases he

theorem connect_misses (h : Host π ν) (a : Adapter π) (id : ConnectionId) (s t : Endpoint)
    (e : EndpointId) : (turn h (.connect id s t) a).answer = .error (.unknownEndpoint e) ↔
      Misses (a.registry.endpoints.mapValues (·.1)) s.id t.id e := by
  simp only [Misses, Table.get?_mapValues]
  simp only [turn, library, connect, Registry.handle]
  rcases a.registry.endpoints.get? s.id with _ | first
  · simp [eq_comm]
  · rcases a.registry.endpoints.get? t.id with _ | second
    · simp [eq_comm]
    · dsimp only
      split
      · next he =>
        obtain ⟨detail, rfl⟩ := invoke_fault he
        simp
      · split
        · simp
        · simp

theorem memory_misses (m : Memory) (id : ConnectionId) (s t : Endpoint) (e : EndpointId) :
    (Memory.call (.connect id s t) m).1 = .error (.unknownEndpoint e) ↔
      Misses (m.endpoints.mapValues (·.item)) s.id t.id e := by
  simp only [Misses, Table.get?_mapValues, Memory.call, Memory.connect]
  rcases m.endpoints.get? s.id with _ | first
  · simp [eq_comm]
  · rcases m.endpoints.get? t.id with _ | second
    · simp [eq_comm]
    · dsimp only
      split
      · next f hf =>
        have hother : f ≠ .unknownEndpoint e := by
          rintro rfl
          repeat' split at hf
          all_goals cases hf
        simpa using hother
      · simp

theorem hasEndpoints_iff {r : Registry Value} {m : Memory}
    (h : r.endpoints.mapValues (·.1) = m.endpoints.mapValues (·.item)) (item : ItemId) :
    r.hasEndpoints item = true ↔ m.endpointsOf item ≠ [] := by
  have hr : r.hasEndpoints item = (r.endpoints.mapValues (·.1)).any fun e => e.2 == item := by
    simp only [Registry.hasEndpoints, Table.mapValues, List.any_map]
    rfl
  rw [hr, h]
  simp [Table.mapValues, Memory.endpointsOf, List.any_map]

section Move
variable {h : Host π ν} {item : ItemId} {p : Point} {n : ν}

theorem moveItem_observed {o : Adapter (Observed π)} (hn : element h.observed item o = .ok n)
    (hs : (setStyles h.observed n
      [("left", Decimal.pixels p.x), ("top", Decimal.pixels p.y)] o).1 = .ok ()) :
    let o' := (moveItem h.observed item p o).2
    (o.registry.hasEndpoints item = true ∧ ∃ outcome, o'.page.invocations =
        o.page.invocations ++ [⟨"revalidate", [.string item.text], outcome⟩]) ∨
      (o.registry.hasEndpoints item = false ∧ o'.page.invocations = o.page.invocations) := by
  intro o'
  simp only [o', moveItem, hn]
  split
  · next f styled he =>
    rw [he] at hs
    cases hs
  · next styled he =>
    obtain ⟨hreg, hquiet⟩ := setStyles_observed h he
    rw [hreg]
    split
    · next hends =>
      refine Or.inl ⟨hends, ?_⟩
      split
      · next he' =>
        obtain ⟨-, outcome, hinvoked, -⟩ := invoke_observed h he'
        exact ⟨outcome, hquiet ▸ hinvoked⟩
      · next he' =>
        obtain ⟨-, outcome, hinvoked, -⟩ := invoke_observed h he'
        exact ⟨outcome, hquiet ▸ hinvoked⟩
    · next hends => exact Or.inr ⟨Bool.eq_false_iff.mpr hends, hquiet⟩

theorem move_invocations {a : Adapter π} (hn : element h item a = .ok n)
    (hs : (setStyles h n [("left", Decimal.pixels p.x), ("top", Decimal.pixels p.y)] a).1 =
      .ok ()) :
    let t := turn h (.moveItem item p) a
    (a.registry.hasEndpoints item = true ∧
        ∃ outcome, t.invocations = [⟨"revalidate", [.string item.text], outcome⟩]) ∨
      (a.registry.hasEndpoints item = false ∧ t.invocations = []) := by
  let o : Adapter (Observed π) := ⟨⟨a.page, []⟩, a.registry⟩
  have hfound : element h.observed item o = .ok n :=
    (element_seen h.observed_shows o item).symm.trans hn
  have hstyled := congrArg Prod.fst (setStyles_seen h.observed_shows o n
    [("left", Decimal.pixels p.x), ("top", Decimal.pixels p.y)])
  exact moveItem_observed hfound (hstyled.symm.trans hs)

end Move

/-- The registry of a page refines the library in memory, over any calls and whichever of them the
page lets fail: a call that fails leaves the registry as it is; the registry has the draggable items
and the owners of endpoints that the library in memory has which was given the calls that succeeded,
and the handle that an endpoint was last added under. So a connection finds an endpoint missing as
the library in memory does, and a moved element has its endpoints drawn again if that one has
any. -/
theorem registry_refines_memory (h : Host π ν) (xs : List (π × Call)) :
    let o := run h xs
    let r := o.registry
    let m := fed o.turns
    (∀ t ∈ o.turns, library h t.call t.before = (t.answer, t.after) ∧
        ∀ f, t.answer = .error f → t.after.registry = t.before.registry) ∧
      (∀ id, id ∈ r.draggables ↔ ∃ box, m.draggables.get? id = some box) ∧
      (∀ id, (r.endpoints.get? id).map (·.1) = (m.endpoints.get? id).map (·.item)) ∧
      (∀ id item v, r.endpoints.get? id = some (item, v) →
        Since (fun t => t.Hands id item v) (fun t => ∃ item v, t.Hands id item v) o.turns) ∧
      ∀ page,
        (∀ id s t e, (turn h (.connect id s t) ⟨page, r⟩).answer = .error (.unknownEndpoint e) ↔
          (Memory.call (.connect id s t) m).1 = .error (.unknownEndpoint e)) ∧
        ∀ item p n, element h item ⟨page, r⟩ = .ok n →
          (setStyles h n [("left", Decimal.pixels p.x), ("top", Decimal.pixels p.y)]
            ⟨page, r⟩).1 = .ok () →
          let t := turn h (.moveItem item p) ⟨page, r⟩
          (m.endpointsOf item ≠ [] ∧
              ∃ outcome, t.invocations = [⟨"revalidate", [.string item.text], outcome⟩]) ∨
            (m.endpointsOf item = [] ∧ t.invocations = []) := by
  intro o r m
  have hr : Refines r m o.turns := run_refines h xs
  refine ⟨run_turns h xs, hr.draggables, fun id => ?_, fun id item v he => ?_, fun page => ?_⟩
  · rw [← Table.get?_mapValues, ← Table.get?_mapValues, hr.owners]
  · exact hr.handles id item v (Table.mem_of_get? he)
  · refine ⟨fun id s t e => ?_, fun item p n hn hs => ?_⟩
    · rw [connect_misses, memory_misses, hr.owners]
    · rcases move_invocations hn hs with ⟨hends, hasked⟩ | ⟨hends, hquiet⟩
      · exact Or.inl ⟨(hasEndpoints_iff hr.owners item).mp hends, hasked⟩
      · refine Or.inr ⟨?_, hquiet⟩
        by_contra hne
        exact Bool.false_ne_true (hends.symm.trans ((hasEndpoints_iff hr.owners item).mpr hne))

def named : Host String Unit where
  invoke _ _ name := (if name = "" then .error .notCallable else .ok (.string name), name)
  elementById? _ _ := some ()
  hasStyle _ := true
  setStyle _ _ _ name := (if name = "" then .error .null else .ok (), name)
  parse _ name := (.ok .null, name)

/-- An endpoint is added twice, the removal of its item fails, and then the item is moved. -/
theorem registry_refines_memory_past_failure :
    let e : Endpoint := ⟨⟨1⟩, ⟨"canvasItem0"⟩, .source, .source⟩
    let o := run named
      [("old", .addEndpoint e), ("new", .addEndpoint e), ("", .removeElement e.item)]
    let moved := turn named (.moveItem e.item ⟨10, 20⟩) ⟨"new", o.registry⟩
    (∃ t ∈ o.turns, t.call = .removeElement e.item ∧ t.after.registry = t.before.registry) ∧
      Since (fun t => t.Hands ⟨1⟩ ⟨"canvasItem0"⟩ (.string "new"))
        (fun t => ∃ item v, t.Hands ⟨1⟩ item v) o.turns ∧
      (fed o.turns).endpoints.get? ⟨1⟩ = some e ∧
      ∃ outcome, moved.invocations = [⟨"revalidate", [.string "canvasItem0"], outcome⟩] := by
  intro e o moved
  obtain ⟨hturns, -, -, hhandles, hnext⟩ := registry_refines_memory named
    [("old", .addEndpoint e), ("new", .addEndpoint e), ("", .removeElement e.item)]
  let before := run named [("old", .addEndpoint e), ("new", .addEndpoint e)]
  let removal := turn named (.removeElement e.item) ⟨"", before.registry⟩
  have hremoval : removal ∈ o.turns :=
    List.mem_append_right before.turns (List.mem_singleton_self removal)
  have hends : (fed o.turns).endpointsOf e.item = [e.id] := rfl
  refine ⟨⟨removal, hremoval, rfl, (hturns removal hremoval).2 _ rfl⟩,
    hhandles ⟨1⟩ ⟨"canvasItem0"⟩ (.string "new") rfl, rfl, ?_⟩
  rcases (hnext "new").2 e.item ⟨10, 20⟩ () rfl rfl with ⟨-, hasked⟩ | ⟨hnone, -⟩
  · exact hasked
  · cases hends.symm.trans hnone

end Adapter

end DiagramEditor.Browser

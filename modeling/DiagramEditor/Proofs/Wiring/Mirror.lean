import DiagramEditor.Board.Setup
import DiagramEditor.Proofs.Document.Lookup
import DiagramEditor.Proofs.Wiring.Fallible

/-! The library in memory that mirrors a list of items. Registering a document with an empty
library, item by item, ends with its mirror as long as no two items and no two endpoints share an
id. -/
namespace DiagramEditor

namespace Wiring

section CallAll
variable {σ : Type} {library : Library σ}

theorem Library.callAll_append {xs : List Call} {s s' : σ} (h : library.callAll xs s = (.ok (), s'))
    (ys : List Call) : library.callAll (xs ++ ys) s = library.callAll ys s' := by
  induction xs generalizing s with
  | nil =>
    obtain ⟨-, rfl⟩ := Prod.mk.inj h
    rfl
  | cons c rest ih =>
    simp only [callAll, List.cons_append] at h ⊢
    split at h
    · cases h
    · exact ih h

theorem Library.callAll_cons_ok {c : Call} {rest : List Call} {s s' : σ}
    (h : library.callAll (c :: rest) s = (.ok (), s')) :
    ∃ t, library c s = (.ok (), t) ∧ library.callAll rest t = (.ok (), s') := by
  simp only [callAll] at h
  split at h
  · cases h
  · next t ht => exact ⟨t, ht, h⟩

theorem callAll_fronts {w : Surroundings σ} {memory : σ → Memory} (hw : w.Fronts memory)
    {calls : List Call} {s s' : σ} (h : Library.callAll w.call calls s = (.ok (), s')) :
    Library.callAll Memory.call calls (memory s) = (.ok (), memory s') := by
  induction calls generalizing s with
  | nil =>
    obtain ⟨-, rfl⟩ := Prod.mk.inj h
    rfl
  | cons c rest ih =>
    obtain ⟨t, ht, hr⟩ := Library.callAll_cons_ok h
    rw [Library.callAll, hw.accepted ht]
    exact ih hr

theorem callAll_carries {w : Surroundings σ} {memory : σ → Memory} (hw : w.Carries memory)
    {calls : List Call} {m : Memory} {s : σ}
    (h : Library.callAll Memory.call calls (memory s) = (.ok (), m)) :
    ∃ s', Library.callAll w.call calls s = (.ok (), s') ∧ memory s' = m := by
  induction calls generalizing s with
  | nil => exact ⟨s, rfl, (Prod.mk.inj h).2⟩
  | cons c rest ih =>
    obtain ⟨n, hn, hr⟩ := Library.callAll_cons_ok h
    rw [Library.callAll]
    split
    · next f s' hc =>
      rw [hw.carried hc] at hn
      cases hn
    · next s' hc =>
      have hm : Memory.call c (memory s) = (.ok (), memory s') := hw.accepted hc
      rw [hn] at hm
      obtain rfl := (Prod.mk.inj hm).2
      exact ih hr

theorem Memory.callAll_ok {calls : List Call}
    (h : ∀ c ∈ calls, ∀ m, ∃ m', Memory.call c m = (.ok (), m')) (m : Memory) :
    ∃ m', Library.callAll Memory.call calls m = (.ok (), m') := by
  induction calls generalizing m with
  | nil => exact ⟨m, rfl⟩
  | cons c rest ih =>
    obtain ⟨m', hm⟩ := h c List.mem_cons_self m
    rw [Library.callAll, hm]
    exact ih (fun c hc => h c (List.mem_cons_of_mem _ hc)) m'

theorem Memory.callAll_keeps {calls : List Call} {P : Memory → Prop}
    (h : ∀ c ∈ calls, ∀ m m', Memory.call c m = (.ok (), m') → P m → P m') {m m' : Memory}
    (hc : Library.callAll Memory.call calls m = (.ok (), m')) (hm : P m) : P m' := by
  induction calls generalizing m with
  | nil =>
    obtain ⟨-, rfl⟩ := Prod.mk.inj hc
    exact hm
  | cons c rest ih =>
    obtain ⟨n, hn, hr⟩ := Library.callAll_cons_ok hc
    exact ih (fun c hc => h c (List.mem_cons_of_mem _ hc)) hr (h c List.mem_cons_self _ _ hn hm)

end CallAll

namespace Memory

/-- The library that holds items and their endpoints and nothing else. -/
def mirror (container : Option String) (box : Size) (items : List Item) : Memory where
  container := container
  draggables := (items.filter (·.draggable)).map fun i => (i.id, box)
  positions := (items.filter (·.draggable)).map fun i => (i.id, i.position)
  endpoints := (items.flatMap (·.endpoints)).map fun e => (e.id, e)
  connections := []

theorem mirror_nil (container : Option String) (box : Size) :
    mirror container box [] = { empty with container := container } := rfl

theorem call_addEndpoints {es old : List Endpoint} (hn : ((old ++ es).map (·.id)).Nodup)
    (m : Memory) (hm : m.endpoints = old.map fun e => (e.id, e)) :
    Library.callAll call (es.map .addEndpoint) m =
      (.ok (), { m with endpoints := (old ++ es).map fun e => (e.id, e) }) := by
  induction es generalizing old m with
  | nil => simp [Library.callAll, ← hm]
  | cons e rest ih =>
    have hf : ∀ f ∈ old, f.id ≠ e.id := by
      rw [List.map_append, List.map_cons] at hn
      intro f hf
      exact (List.nodup_append.mp hn).2.2 f.id (List.mem_map_of_mem hf) e.id List.mem_cons_self
    have hs : m.endpoints.set e.id e = (old ++ [e]).map fun e => (e.id, e) := by
      rw [hm, Table.set_eq_append (Table.has_map_eq_false hf), List.map_append]
      rfl
    have hn' : ((old ++ [e] ++ rest).map (·.id)).Nodup := by
      rw [List.append_assoc]
      exact hn
    simp only [List.map_cons, Library.callAll, call]
    rw [ih hn' _ hs, List.append_assoc]
    rfl

section Registration
variable {container : Option String} {box : Size} {items : List Item} {i : Item}

theorem call_registration (hi : ∀ j ∈ items, j.id ≠ i.id)
    (hn : (((items ++ [i]).flatMap (·.endpoints)).map (·.id)).Nodup) :
    Library.callAll call (Board.registration box i) (mirror container box items) =
      (.ok (), mirror container box (items ++ [i])) := by
  simp only [List.flatMap_append, List.flatMap_singleton] at hn
  have hd : ∀ j ∈ items.filter (·.draggable), j.id ≠ i.id := fun j hj =>
    hi j (List.mem_filter.mp hj).1
  have hfirst : Library.callAll call
      (if i.draggable then [.makeDraggable i.id box, .moveItem i.id i.position] else [])
      (mirror container box items) =
        (.ok (), { mirror container box (items ++ [i]) with
          endpoints := (items.flatMap (·.endpoints)).map fun e => (e.id, e) }) := by
    split
    · next h =>
      simp only [Library.callAll, call, mirror]
      rw [Table.set_eq_append (Table.has_map_eq_false hd),
        Table.set_eq_append (Table.has_map_eq_false hd)]
      simp [h]
    · next h => simp [Library.callAll, mirror, h]
  rw [Board.registration, Library.callAll_append hfirst, call_addEndpoints hn _ rfl]
  simp [mirror]

theorem call_registrations {todo : List Item} (hi : ((items ++ todo).map (·.id)).Nodup)
    (hn : (((items ++ todo).flatMap (·.endpoints)).map (·.id)).Nodup) :
    Library.callAll call (todo.flatMap (Board.registration box)) (mirror container box items) =
      (.ok (), mirror container box (items ++ todo)) := by
  induction todo generalizing items with
  | nil => simp [Library.callAll]
  | cons i rest ih =>
    have hne : ∀ j ∈ items, j.id ≠ i.id := by
      rw [List.map_append, List.map_cons] at hi
      intro j hj
      exact (List.nodup_append.mp hi).2.2 j.id (List.mem_map_of_mem hj) i.id List.mem_cons_self
    rw [List.append_cons] at hi hn
    have hfirst : (((items ++ [i]).flatMap (·.endpoints)).map (·.id)).Nodup := by
      rw [List.flatMap_append, List.map_append] at hn
      exact (List.nodup_append.mp hn).1
    rw [List.flatMap_cons, Library.callAll_append (call_registration hne hfirst), ih hi hn,
      ← List.append_cons]

end Registration

theorem call_canvasCalls {d : Document} (hi : (d.items.map (·.id)).Nodup)
    (hn : (d.endpoints.map (·.id)).Nodup) (container : Element) (m : Memory) :
    Library.callAll call (Board.canvasCalls container d) m =
      (.ok (), mirror (some (container.id.getD container.tag)) container.rect.size d.items) := by
  have hr : Library.callAll call (d.items.flatMap (Board.registration container.rect.size))
      (mirror (some (container.id.getD container.tag)) container.rect.size []) = _ :=
    call_registrations hi hn
  simpa only [Board.canvasCalls, Library.callAll, call, mirror_nil, List.nil_append] using hr

end Memory

end Wiring

end DiagramEditor

import DiagramEditor.Proofs.Wiring.Agreement

/-! Legal connections: each runs from a source that is held to a target that is held, and no
endpoint takes more of them than its style allows. -/
namespace DiagramEditor

open Wiring (Call Memory Connection)

namespace Wiring.Memory

/-- Both ends of a connection are held, in their roles. -/
def Linked (m : Memory) (c : Connection) : Prop :=
  ∃ s t, m.endpoints.get? c.source = some s ∧ m.endpoints.get? c.target = some t ∧
    s.role = .source ∧ t.role = .target

def Limited (m : Memory) (e : Endpoint) : Prop :=
  ∀ n, e.style.limit = some n → m.connectionCount e.id ≤ n

structure Legal (m : Memory) (d : Document) : Prop extends m.Within d where
  distinct : d.Distinct
  linked : ∀ c ∈ m.connections, m.Linked c
  limited : ∀ e ∈ d.endpoints, m.Limited e

section Legal
variable {m m' : Memory} {d d' : Document}

theorem Linked.of_get? {c : Connection} (h : m.Linked c)
    (hk : ∀ k e, (k = c.source ∨ k = c.target) → m.endpoints.get? k = some e →
      m'.endpoints.get? k = some e) : m'.Linked c := by
  obtain ⟨s, t, hs, ht, hr⟩ := h
  exact ⟨s, t, hk _ s (Or.inl rfl) hs, hk _ t (Or.inr rfl) ht, hr⟩

theorem connectionCount_nil (h : m.connections = []) (e : EndpointId) :
    m.connectionCount e = 0 := by
  rw [connectionCount, h]
  rfl

theorem Within.held (h : m.Within d) {k : EndpointId} {e : Endpoint}
    (hk : m.endpoints.get? k = some e) : k = e.id ∧ e ∈ d.endpoints :=
  h.endpoints (Table.mem_of_get? hk)

theorem Legal.eq_of_id (h : m.Legal d) {e f : Endpoint} (he : e ∈ d.endpoints)
    (hf : f ∈ d.endpoints) (hid : e.id = f.id) : e = f :=
  List.inj_on_of_nodup_map h.distinct he hf hid

theorem Legal.connectionCount_eq_zero (h : m.Legal d) {id : EndpointId}
    (hid : ∀ f ∈ d.endpoints, f.id ≠ id) : m.connectionCount id = 0 := by
  rw [connectionCount, List.countP_eq_zero]
  intro c hc
  obtain ⟨s, t, hs, ht, -⟩ := h.linked c hc
  have hsid : c.source ≠ id := by
    rw [(h.held hs).1]
    exact hid s (h.held hs).2
  have htid : c.target ≠ id := by
    rw [(h.held ht).1]
    exact hid t (h.held ht).2
  simp [Connection.touches, hsid, htid]

theorem Legal.setContainer (h : m.Legal d) (name : Option String) :
    Legal { empty with container := name } d where
  toWithin := (within_empty d).of_eq rfl rfl
  distinct := h.distinct
  linked := fun _ hc => absurd hc List.not_mem_nil
  limited := fun e _ n _ => by
    rw [connectionCount_nil rfl]
    exact Nat.zero_le n

theorem Legal.of_eq (h : m.Legal d) (hw : m'.Within d') (he : m'.endpoints = m.endpoints)
    (hc : m'.connections = m.connections) (hd : d'.endpoints = d.endpoints) : m'.Legal d' where
  toWithin := hw
  distinct := h.distinct.sublist (by rw [hd])
  linked := by
    intro c hm
    exact (h.linked c (hc ▸ hm)).of_get? fun k e _ hk => he ▸ hk
  limited := by
    intro e hm n hn
    rw [connectionCount, hc]
    exact h.limited e (hd ▸ hm) n hn

theorem Legal.addEndpoint (h : m.Legal d) {e : Endpoint} (he : e ∈ d.endpoints)
    (hw : Within { m with endpoints := m.endpoints.set e.id e } d) :
    Legal { m with endpoints := m.endpoints.set e.id e } d where
  toWithin := hw
  distinct := h.distinct
  linked := by
    intro c hc
    refine (h.linked c hc).of_get? fun k f _ hk => ?_
    obtain ⟨rfl, hf⟩ := h.held hk
    simp only [Table.get?_set]
    split
    · next hid => rw [h.eq_of_id hf he hid]
    · exact hk
  limited := h.limited

theorem isFull_lt {e : Endpoint} {n : Nat} (h : m.isFull e = false) (hn : e.style.limit = some n) :
    m.connectionCount e.id < n := by
  rw [isFull, hn] at h
  simpa using h

theorem Legal.connect (h : m.Legal d) {id : ConnectionId} {source target : EndpointId}
    (hc : m.connect id source target = .ok m') : m'.Legal d := by
  obtain ⟨s, t, hs, ht, hsr, htr, hfs, hft, rfl⟩ := connect_ok hc
  obtain ⟨rfl, hsd⟩ := h.held hs
  obtain ⟨rfl, htd⟩ := h.held ht
  refine ⟨h.toWithin.of_eq rfl rfl, h.distinct, ?_, ?_⟩
  · intro c hm
    rcases List.mem_append.mp hm with hm | hm
    · exact h.linked c hm
    · obtain rfl := List.mem_singleton.mp hm
      exact ⟨s, t, hs, ht, hsr, htr⟩
  · intro e he n hn
    have hcount :
        connectionCount { m with connections := m.connections ++ [⟨id, s.id, t.id⟩] } e.id =
          m.connectionCount e.id + if Connection.touches ⟨id, s.id, t.id⟩ e.id then 1 else 0 := by
      simp only [connectionCount, List.countP_append, List.countP_singleton]
    rw [hcount]
    split
    · next htouch =>
      have hfull : m.isFull e = false := by
        simp only [Connection.touches, Bool.or_eq_true, beq_iff_eq] at htouch
        rcases htouch with hid | hid
        · exact h.eq_of_id hsd he hid ▸ hfs
        · exact h.eq_of_id htd he hid ▸ hft
      exact isFull_lt hfull hn
    · exact h.limited e he n hn

theorem Legal.remove (h : m.Legal d) (hs : d.Sound) (id : ItemId) :
    (m.removeElement id).Legal (d.remove id) where
  toWithin := h.toWithin.remove hs id
  distinct := h.distinct.sublist (Document.endpoints_remove d id)
  linked := by
    intro c hc
    obtain ⟨hc, hkeep⟩ := List.mem_filter.mp hc
    simp only [Bool.and_eq_true, Bool.not_eq_true', List.contains_eq_mem,
      decide_eq_false_iff_not] at hkeep
    refine (h.linked c hc).of_get? fun k e hk hg => ?_
    have hgone : k ∉ m.endpointsOf id := by
      rcases hk with rfl | rfl
      · exact hkeep.1
      · exact hkeep.2
    refine Table.get?_filter hg ?_
    have hitem : e.item ≠ id := by
      intro hid
      refine hgone (List.mem_map.mpr ⟨(k, e), List.mem_filter.mpr ⟨Table.mem_of_get? hg, ?_⟩, rfl⟩)
      simpa using hid
    simpa using hitem
  limited := by
    intro e he n hn
    have hm : e ∈ d.endpoints := (Document.endpoints_remove d id).subset he
    have hle : (m.removeElement id).connectionCount e.id ≤ m.connectionCount e.id :=
      List.Sublist.countP_le List.filter_sublist
    exact Nat.le_trans hle (h.limited e hm n hn)

theorem Legal.attach (h : m.Legal d) {e : Endpoint} (hi : ∃ i, d.find? e.item = some i)
    (hf : ∀ f ∈ d.endpoints, f.id ≠ e.id) :
    Legal { m with endpoints := m.endpoints.set e.id e } (d.update e.item (Item.attach e)) where
  toWithin := h.toWithin.attach hi
  distinct := h.distinct.perm_cons hf (Document.endpoints_attach hi)
  linked := by
    intro c hc
    refine (h.linked c hc).of_get? fun k f _ hk => ?_
    obtain ⟨rfl, hm⟩ := h.held hk
    simp only [Table.get?_set]
    rw [if_neg (hf f hm), hk]
  limited := by
    intro f hm n hn
    rcases (Document.mem_endpoints_attach hi).mp hm with rfl | hm
    · have hzero : m.connectionCount f.id = 0 := h.connectionCount_eq_zero hf
      exact hzero ▸ Nat.zero_le n
    · exact h.limited f hm n hn

theorem Legal.call {c : Call} (h : m.Legal d) (hs : d.Sound) (hd : d.Warrants c)
    (hc : Memory.call c m = (.ok (), m')) : m'.Legal d := by
  have hw : m'.Within d := h.toWithin.call hs hd hc
  cases c with
  | setContainer container =>
    obtain ⟨-, rfl⟩ := Prod.mk.inj hc
    exact h.setContainer _
  | makeDraggable id box =>
    obtain ⟨-, rfl⟩ := Prod.mk.inj hc
    exact h.of_eq hw rfl rfl rfl
  | moveItem id p =>
    obtain ⟨-, rfl⟩ := Prod.mk.inj hc
    exact h.of_eq hw rfl rfl rfl
  | addEndpoint e =>
    obtain ⟨-, rfl⟩ := Prod.mk.inj hc
    exact h.addEndpoint hd hw
  | connect id s t => exact h.connect (call_connect hc)
  | removeElement id => exact hd.elim

theorem legal_upheld {r : Board.Conduct}
    (hr : ∀ {d e}, r.attaches d e → ∀ f ∈ d.endpoints, f.id ≠ e.id) : r.Upholds Legal where
  alike := fun hd he hc hd' he' h =>
    h.of_eq ((within_upheld r).alike hd he hc hd' he' h.toWithin) he hc hd'
  told := fun hs _ hd hc h => h.call hs hd hc
  enabled := fun _ hi h => h.of_eq (h.toWithin.enable hi) rfl rfl (Document.endpoints_enable _ _)
  removed := fun hs h => h.remove hs _
  attached := fun ha hi h => h.attach hi (hr ha)

end Legal

end Wiring.Memory

end DiagramEditor

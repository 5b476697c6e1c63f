import DiagramEditor.Proofs.Wiring.Agreement

/-! What the library in memory gives up with an item, whatever calls were made before: also when the
id of an endpoint was used twice, or an endpoint has changed its item. -/
namespace DiagramEditor

namespace Table

variable {κ ν : Type} [DecidableEq κ] {t : Table κ ν}

def Keyed (t : Table κ ν) : Prop := (t.map (·.1)).Nodup

omit [DecidableEq κ] in
theorem Keyed.filter (h : t.Keyed) (p : κ × ν → Bool) : Keyed (t.filter p) :=
  (List.filter_sublist.map _).nodup h

theorem Keyed.set (h : t.Keyed) (k : κ) (v : ν) : (t.set k v).Keyed := by
  have hk : k ∉ (t.erase k).map (·.1) := by
    intro hm
    obtain ⟨e, he, hek⟩ := List.mem_map.mp hm
    exact (mem_erase.mp he).2 hek
  rw [Keyed, Table.set, List.map_append]
  exact (h.filter _).append (List.nodup_singleton k) (List.disjoint_singleton.mpr hk)

theorem Keyed.get?_of_mem (h : t.Keyed) {k : κ} {v : ν} (hm : (k, v) ∈ t) :
    t.get? k = some v := by
  obtain ⟨u, hu⟩ := has_iff.mp (has_of_mem hm)
  have he : (k, u) = (k, v) := List.inj_on_of_nodup_map h (mem_of_get? hu) hm rfl
  rw [hu, (Prod.mk.inj he).2]

theorem Keyed.get?_filter (h : t.Keyed) (p : κ × ν → Bool) (k : κ) :
    get? (t.filter p) k = (t.get? k).filter fun v => p (k, v) := by
  cases hk : t.get? k with
  | none =>
    rw [Option.filter_none, Option.eq_none_iff_forall_ne_some]
    intro v hv
    cases hk.symm.trans (h.get?_of_mem (List.mem_of_mem_filter (mem_of_get? hv)))
  | some v =>
    by_cases hp : p (k, v) = true
    · rw [Table.get?_filter hk hp, Option.filter_some, if_pos hp]
    · rw [Option.filter_some, if_neg hp, Option.eq_none_iff_forall_ne_some]
      intro u hu
      obtain ⟨hm, hpu⟩ := List.mem_filter.mp (mem_of_get? hu)
      obtain rfl := Option.some.inj (hk.symm.trans (h.get?_of_mem hm))
      exact hp hpu

end Table

namespace Wiring.Memory

variable {m m' : Memory}

def after (calls : List Call) (m : Memory) : Memory :=
  calls.foldl (fun m c => (call c m).2) m

def owns (m : Memory) (item : ItemId) (k : EndpointId) : Bool :=
  (m.endpoints.get? k).any (·.item == item)

def ends (m : Memory) (item : ItemId) (c : Connection) : Bool :=
  m.owns item c.source || m.owns item c.target

/-- Each endpoint is held once, under its id, and so are both ends of each connection. -/
structure Tied (m : Memory) : Prop where
  keyed : m.endpoints.Keyed
  ids : ∀ {k e}, (k, e) ∈ m.endpoints → k = e.id
  sources : ∀ c ∈ m.connections, m.endpoints.has c.source = true
  targets : ∀ c ∈ m.connections, m.endpoints.has c.target = true

theorem tied_bare (container : Option String) : Tied { empty with container := container } where
  keyed := List.nodup_nil
  ids := fun h => absurd h List.not_mem_nil
  sources := fun _ h => absurd h List.not_mem_nil
  targets := fun _ h => absurd h List.not_mem_nil

theorem Tied.of_eq (h : m.Tied) (he : m'.endpoints = m.endpoints)
    (hc : m'.connections = m.connections) : m'.Tied where
  keyed := he ▸ h.keyed
  ids := fun hm => h.ids (he ▸ hm)
  sources := fun c hm => he ▸ h.sources c (hc ▸ hm)
  targets := fun c hm => he ▸ h.targets c (hc ▸ hm)

theorem Tied.id_of_get? (h : m.Tied) {k : EndpointId} {e : Endpoint}
    (hk : m.endpoints.get? k = some e) : e.id = k :=
  (h.ids (Table.mem_of_get? hk)).symm

theorem Tied.addEndpoint (h : m.Tied) (e : Endpoint) :
    Tied { m with endpoints := m.endpoints.set e.id e } where
  keyed := h.keyed.set e.id e
  ids := by
    intro k f hm
    rcases Table.mem_set.mp hm with ⟨hm, -⟩ | he
    · exact h.ids hm
    · obtain ⟨rfl, rfl⟩ := Prod.mk.inj he
      rfl
  sources := fun c hc => Table.has_set (Or.inr (h.sources c hc))
  targets := fun c hc => Table.has_set (Or.inr (h.targets c hc))

theorem Tied.connect (h : m.Tied) {id : ConnectionId} {source target : EndpointId}
    (hc : m.connect id source target = .ok m') : m'.Tied := by
  obtain ⟨s, t, hs, ht, -, -, -, -, rfl⟩ := connect_ok hc
  refine ⟨h.keyed, h.ids, fun c hm => ?_, fun c hm => ?_⟩
  · rcases List.mem_append.mp hm with hm | hm
    · exact h.sources c hm
    · obtain rfl := List.mem_singleton.mp hm
      exact Table.has_iff.mpr ⟨s, (h.id_of_get? hs).symm ▸ hs⟩
  · rcases List.mem_append.mp hm with hm | hm
    · exact h.targets c hm
    · obtain rfl := List.mem_singleton.mp hm
      exact Table.has_iff.mpr ⟨t, (h.id_of_get? ht).symm ▸ ht⟩

section Remove
variable (item : ItemId)

theorem Tied.mem_endpointsOf (h : m.Tied) {k : EndpointId} :
    k ∈ m.endpointsOf item ↔ m.owns item k = true := by
  simp only [endpointsOf, owns, List.mem_map, List.mem_filter, Option.any_eq_true]
  constructor
  · rintro ⟨⟨k, e⟩, ⟨hm, hitem⟩, rfl⟩
    exact ⟨e, h.keyed.get?_of_mem hm, hitem⟩
  · rintro ⟨e, he, hitem⟩
    exact ⟨(k, e), ⟨Table.mem_of_get? he, hitem⟩, rfl⟩

theorem Tied.removeElement_connections (h : m.Tied) :
    (m.removeElement item).connections = m.connections.filter fun c => !m.ends item c := by
  refine List.filter_congr fun c _ => ?_
  have howns : ∀ k, (m.endpointsOf item).contains k = m.owns item k := fun k =>
    Bool.eq_iff_iff.mpr (List.contains_iff_mem.trans (h.mem_endpointsOf item))
  rw [ends, howns, howns, Bool.not_or]

theorem Tied.removeElement_endpoint (h : m.Tied) (k : EndpointId) :
    (m.removeElement item).endpoints.get? k =
      if m.owns item k then none else m.endpoints.get? k := by
  rw [removeElement, h.keyed.get?_filter, owns]
  cases m.endpoints.get? k with
  | none => simp
  | some e => by_cases he : e.item = item <;> simp [he]

theorem Tied.removeElement_has (h : m.Tied) {k : EndpointId} (hk : m.endpoints.has k = true)
    (ho : m.owns item k = false) : (m.removeElement item).endpoints.has k = true := by
  obtain ⟨e, he⟩ := Table.has_iff.mp hk
  refine Table.has_iff.mpr ⟨e, ?_⟩
  rw [h.removeElement_endpoint, if_neg (Bool.eq_false_iff.mp ho), he]

theorem Tied.remove (h : m.Tied) : (m.removeElement item).Tied := by
  have hkept : ∀ c ∈ (m.removeElement item).connections,
      c ∈ m.connections ∧ m.owns item c.source = false ∧ m.owns item c.target = false := by
    intro c hc
    rw [h.removeElement_connections] at hc
    obtain ⟨hm, hends⟩ := List.mem_filter.mp hc
    exact ⟨hm, Bool.or_eq_false_iff.mp (Bool.not_eq_eq_eq_not.mp hends)⟩
  refine ⟨h.keyed.filter _, fun hm => h.ids (List.mem_of_mem_filter hm), fun c hc => ?_,
    fun c hc => ?_⟩
  · obtain ⟨hm, hs, -⟩ := hkept c hc
    exact h.removeElement_has item (h.sources c hm) hs
  · obtain ⟨hm, -, ht⟩ := hkept c hc
    exact h.removeElement_has item (h.targets c hm) ht

theorem Tied.removeElement_count (h : m.Tied) {k : EndpointId} (hk : m.owns item k = false) :
    m.connectionCount k = (m.removeElement item).connectionCount k +
      m.connections.countP fun c => (c.source == k && m.owns item c.target) ||
        (c.target == k && m.owns item c.source) := by
  have hgone : ∀ c : Connection, (c.touches k && m.ends item c) =
      ((c.source == k && m.owns item c.target) || (c.target == k && m.owns item c.source)) := by
    intro c
    have hs : (c.source == k) = true → m.owns item c.source = false := fun h => eq_of_beq h ▸ hk
    have ht : (c.target == k) = true → m.owns item c.target = false := fun h => eq_of_beq h ▸ hk
    rw [Connection.touches, ends]
    cases hsk : c.source == k
    · cases htk : c.target == k
      · rfl
      · simp [ht htk]
    · cases htk : c.target == k
      · simp [hs hsk]
      · simp [hs hsk, ht htk]
  have hsplit := List.countP_eq_countP_filter_add m.connections (fun c => c.touches k)
    fun c => !m.ends item c
  simp only [Bool.not_not, List.countP_filter (q := m.ends item), hgone] at hsplit
  rw [connectionCount, connectionCount, h.removeElement_connections]
  exact hsplit

end Remove

theorem Tied.call (h : m.Tied) (c : Call) : (Memory.call c m).2.Tied := by
  cases c with
  | setContainer e => exact tied_bare _
  | makeDraggable item box => exact h.of_eq rfl rfl
  | moveItem item p => exact h.of_eq rfl rfl
  | addEndpoint e => exact h.addEndpoint e
  | connect id s t =>
    simp only [Memory.call]
    split
    · exact h
    · next hc => exact h.connect hc
  | removeElement item => exact h.remove item

theorem tied_after (calls : List Call) : (after calls empty).Tied := by
  induction calls using List.reverseRecOn with
  | nil => exact tied_bare none
  | append_singleton calls c ih =>
    rw [after, List.foldl_concat]
    exact ih.call c

/-- After any calls, the removal of an item takes its draggable, its position and the endpoints that
are held for it then, takes the connections with an end among these, in whatever number they run
between two endpoints, and leaves all else as it is. -/
theorem removal_takes_own_share (calls : List Call) (item : ItemId) :
    let m := after calls empty
    let m' := after (calls ++ [.removeElement item]) empty
    (Memory.call (.removeElement item) m).1 = .ok () ∧ m'.container = m.container ∧
    (∀ c ∈ m.connections, m.endpoints.has c.source = true ∧ m.endpoints.has c.target = true) ∧
    (∀ c ∈ m'.connections, m'.endpoints.has c.source = true ∧ m'.endpoints.has c.target = true) ∧
    (∀ id, m'.draggables.get? id = if id = item then none else m.draggables.get? id) ∧
    (∀ id, m'.positions.get? id = if id = item then none else m.positions.get? id) ∧
    (∀ k, m'.endpoints.get? k = if m.owns item k then none else m.endpoints.get? k) ∧
    m'.connections =
      m.connections.filter (fun c => !(m.owns item c.source || m.owns item c.target)) ∧
    ∀ k, m.owns item k = false →
      m.connectionCount k = m'.connectionCount k +
        m.connections.countP fun c => (c.source == k && m.owns item c.target) ||
          (c.target == k && m.owns item c.source) := by
  intro m m'
  have h : m.Tied := tied_after calls
  have h' : m'.Tied := tied_after (calls ++ [.removeElement item])
  have hm' : m' = m.removeElement item := by
    simp only [m', after, List.foldl_concat]
    rfl
  refine ⟨rfl, by rw [hm']; rfl, fun c hc => ⟨h.sources c hc, h.targets c hc⟩,
    fun c hc => ⟨h'.sources c hc, h'.targets c hc⟩, ?_⟩
  rw [hm']
  exact ⟨Table.get?_erase m.draggables item, Table.get?_erase m.positions item,
    h.removeElement_endpoint item, h.removeElement_connections item,
    fun k => h.removeElement_count item⟩

def tangled : List Call :=
  let a : EndpointId → Endpoint := fun k => ⟨k, ⟨"canvasItem0"⟩, .source, .source⟩
  let b : EndpointId → Endpoint := fun k => ⟨k, ⟨"canvasItem1"⟩, .target, .target⟩
  let c : EndpointId → Endpoint := fun k => ⟨k, ⟨"canvasItem2"⟩, .source, .source⟩
  [.addEndpoint (a ⟨1⟩), .addEndpoint { b ⟨2⟩ with item := ⟨"canvasItem0"⟩ }, .addEndpoint (c ⟨3⟩),
    .addEndpoint (b ⟨4⟩), .addEndpoint (c ⟨5⟩), .connect ⟨6⟩ (a ⟨1⟩) (b ⟨2⟩),
    .connect ⟨7⟩ (a ⟨1⟩) (b ⟨4⟩), .connect ⟨8⟩ (a ⟨1⟩) (b ⟨4⟩), .connect ⟨9⟩ (c ⟨3⟩) (b ⟨4⟩),
    .connect ⟨10⟩ (c ⟨5⟩) (b ⟨4⟩), .addEndpoint (a ⟨3⟩)]

theorem removal_takes_own_share_of_target :
    let m := after tangled empty
    let m' := after (tangled ++ [.removeElement ⟨"canvasItem0"⟩]) empty
    m.owns ⟨"canvasItem0"⟩ ⟨4⟩ = false ∧ m.connectionCount ⟨4⟩ = 4 ∧ m'.connectionCount ⟨4⟩ = 1 ∧
      m'.connections = [⟨⟨10⟩, ⟨5⟩, ⟨4⟩⟩] := by
  intro m m'
  obtain ⟨-, -, -, -, -, -, -, hconnections, hcount⟩ :=
    removal_takes_own_share tangled ⟨"canvasItem0"⟩
  have howns : m.owns ⟨"canvasItem0"⟩ ⟨4⟩ = false := by decide
  have hbefore : m.connectionCount ⟨4⟩ = 4 := by decide
  have hgone : (m.connections.countP fun c =>
      (c.source == ⟨4⟩ && m.owns ⟨"canvasItem0"⟩ c.target) ||
        (c.target == ⟨4⟩ && m.owns ⟨"canvasItem0"⟩ c.source)) = 3 := by decide
  have hsplit : 4 = m'.connectionCount ⟨4⟩ + 3 := hbefore ▸ hgone ▸ hcount ⟨4⟩ howns
  refine ⟨howns, hbefore, by omega, hconnections.trans (by decide)⟩

end Wiring.Memory

end DiagramEditor

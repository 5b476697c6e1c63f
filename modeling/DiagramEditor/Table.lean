/-!
Finite maps as lists of entries in the order of insertion. Setting a key anew replaces its entry.
-/
namespace DiagramEditor

abbrev Table (κ ν : Type) := List (κ × ν)

namespace Table

variable {κ ν : Type} [DecidableEq κ]

def get? (t : Table κ ν) (k : κ) : Option ν :=
  (t.find? fun e => e.1 == k).map (·.2)

def has (t : Table κ ν) (k : κ) : Bool :=
  t.any fun e => e.1 == k

def erase (t : Table κ ν) (k : κ) : Table κ ν :=
  t.filter fun e => e.1 != k

def set (t : Table κ ν) (k : κ) (v : ν) : Table κ ν :=
  t.erase k ++ [(k, v)]

@[simp] theorem get?_nil (k : κ) : get? ([] : Table κ ν) k = none := rfl

theorem get?_erase (t : Table κ ν) (k k' : κ) :
    (t.erase k).get? k' = if k' = k then none else t.get? k' := by
  simp only [get?, erase, List.find?_filter]
  induction t with
  | nil => simp
  | cons e rest ih => grind

theorem get?_set (t : Table κ ν) (k k' : κ) (v : ν) :
    (t.set k v).get? k' = if k' = k then some v else t.get? k' := by
  have h := get?_erase t k k'
  simp only [get?, set, List.find?_append] at h ⊢
  grind

theorem set_set (t : Table κ ν) (k : κ) (v v' : ν) : (t.set k v).set k v' = t.set k v' := by
  have hsame : (t.set k v).erase k = t.erase k := by
    simp [set, erase]
  rw [set, hsame]
  rfl

theorem mem_erase {t : Table κ ν} {k : κ} {e : κ × ν} : e ∈ t.erase k ↔ e ∈ t ∧ e.1 ≠ k := by
  simp [erase]

theorem mem_set {t : Table κ ν} {k : κ} {v : ν} {e : κ × ν} :
    e ∈ t.set k v ↔ (e ∈ t ∧ e.1 ≠ k) ∨ e = (k, v) := by
  rw [set, List.mem_append, mem_erase, List.mem_singleton]

theorem mem_of_get? {t : Table κ ν} {k : κ} {v : ν} (h : t.get? k = some v) : (k, v) ∈ t := by
  obtain ⟨e, he, rfl⟩ := Option.map_eq_some_iff.mp h
  have hk : e.1 = k := by simpa using List.find?_some he
  exact hk ▸ List.mem_of_find?_eq_some he

theorem has_iff {t : Table κ ν} {k : κ} : t.has k = true ↔ ∃ v, t.get? k = some v := by
  rw [← Option.isSome_iff_exists, get?, Option.isSome_map, List.find?_isSome, has, List.any_eq_true]

theorem erase_of_get?_none {t : Table κ ν} {k : κ} (h : t.get? k = none) : t.erase k = t := by
  refine List.filter_eq_self.mpr fun e he => bne_iff_ne.mpr ?_
  rintro rfl
  obtain ⟨v, hv⟩ := has_iff.mp (List.any_eq_true.mpr ⟨e, he, beq_self_eq_true e.1⟩)
  cases hv.symm.trans h

theorem has_set {t : Table κ ν} {k k' : κ} {v : ν} (h : k' = k ∨ t.has k' = true) :
    (t.set k v).has k' = true := by
  rw [has_iff, get?_set]
  split
  · exact ⟨v, rfl⟩
  · next hne => exact has_iff.mp (h.resolve_left hne)

theorem has_of_mem {t : Table κ ν} {k : κ} {v : ν} (h : (k, v) ∈ t) : t.has k = true :=
  List.any_eq_true.mpr ⟨(k, v), h, beq_self_eq_true k⟩

theorem get?_filter {t : Table κ ν} {k : κ} {v : ν} (h : t.get? k = some v) {p : κ × ν → Bool}
    (hp : p (k, v) = true) : get? (t.filter p) k = some v := by
  obtain ⟨e, he, rfl⟩ := Option.map_eq_some_iff.mp h
  have hk : e.1 = k := by simpa using List.find?_some he
  subst hk
  induction t with
  | nil => simp at he
  | cons a rest ih =>
    simp only [List.find?_cons] at he
    split at he
    · obtain rfl := Option.some.inj he
      simp [get?, hp]
    · rename_i hne
      have hr := ih he (by simp [get?, he])
      simp only [List.filter_cons]
      split <;> simp_all [get?]

theorem set_eq_append {t : Table κ ν} {k : κ} {v : ν} (h : t.has k = false) :
    t.set k v = t ++ [(k, v)] := by
  rw [set, erase, List.filter_eq_self.mpr]
  intro e he
  simpa using List.any_eq_false.mp h e he

section MapValues
variable {μ : Type} (f : ν → μ) (t : Table κ ν)

def mapValues : Table κ μ := t.map fun e => (e.1, f e.2)

theorem get?_mapValues (k : κ) : (t.mapValues f).get? k = (t.get? k).map f := by
  simp only [get?, mapValues, List.find?_map, Option.map_map]
  rfl

theorem mapValues_set (k : κ) (v : ν) : (t.set k v).mapValues f = (t.mapValues f).set k (f v) := by
  simp only [set, erase, mapValues, List.map_append, List.filter_map]
  rfl

omit [DecidableEq κ] in
theorem mapValues_filter (p : μ → Bool) :
    mapValues f (t.filter fun e => p (f e.2)) = (t.mapValues f).filter fun e => p e.2 := by
  simp only [mapValues, List.filter_map]
  rfl

end MapValues

section Map
variable {α : Type} {f : α → κ} {g : α → ν} {l : List α}

theorem has_map_eq_false {k : κ} (h : ∀ a ∈ l, f a ≠ k) :
    has (l.map fun a => (f a, g a)) k = false := by
  rw [has, List.any_eq_false]
  intro e he
  obtain ⟨a, ha, rfl⟩ := List.mem_map.mp he
  simpa using h a ha

theorem get?_map {a : α} (ha : a ∈ l) (h : ∀ b ∈ l, f b = f a → b = a) :
    get? (l.map fun a => (f a, g a)) (f a) = some (g a) := by
  have hh : has (l.map fun a => (f a, g a)) (f a) = true :=
    has_of_mem (List.mem_map.mpr ⟨a, ha, rfl⟩)
  obtain ⟨v, hv⟩ := has_iff.mp hh
  obtain ⟨b, hb, he⟩ := List.mem_map.mp (mem_of_get? hv)
  obtain ⟨hk, rfl⟩ := Prod.mk.inj he
  rw [hv, h b hb hk]

end Map

end Table

end DiagramEditor

import DiagramEditor.Json.Decode
import DiagramEditor.Proofs.Json.Printing

/-! The fields of a record among the members of an object. -/
namespace DiagramEditor.Json

theorem string?_ofString (s : String) : (ofString s).string? = some s := rfl

theorem nullable?_ofOption {limit : Option Nat} (h : ∀ n ∈ limit, n < wordBound) :
    (ofOption ofNat limit).nullable? nat? = some limit := by
  cases limit with
  | none => rfl
  | some n =>
    have hn : (ofNat n).nat? = some n := if_pos (h n rfl)
    exact congrArg (Option.map some) hn

theorem list?_ofString (names : List String) :
    (ofList ofString names).list? string? = some names := by
  rw [ofList, list?]
  induction names with
  | nil => rfl
  | cons name names ih =>
    simp only [List.map_cons, List.mapM_cons, string?_ofString, ih, Option.bind_eq_bind,
      Option.bind_some, Option.pure_def]

section
variable {members : List (String × String)} {name : String} {names : List String}

theorem occurrences_membersRead (members : List (String × String)) (name : String) :
    occurrences (membersRead members) name = (members.map Prod.fst).count name := by
  rw [occurrences, membersRead, List.countP_map, List.count, List.countP_map]
  refine List.countP_congr fun m _ => ?_
  simp

theorem get?_membersRead {j : Json} (h : ∀ m ∈ members, m.1 = name → read? m.2 = some j) :
    (object (membersRead members)).get? name =
      if name ∈ members.map Prod.fst then some j else none := by
  induction members with
  | nil => rfl
  | cons m members ih =>
    have hfound : (object (membersRead (m :: members))).get? name =
        if m.1 = name then some ((read? m.2).getD .null)
        else (object (membersRead members)).get? name := by
      simp only [get?, membersRead, List.map_cons, List.find?_cons]
      by_cases hm : m.1 = name
      · simp [hm]
      · have hbeq : (some m.1 == some name) = false := by simpa using hm
        simp [hbeq, hm]
    rw [hfound]
    by_cases hm : m.1 = name
    · rw [if_pos hm, h m List.mem_cons_self hm, if_pos (hm ▸ List.mem_cons_self)]
      rfl
    · have hne : name ≠ m.1 := fun he => hm he.symm
      rw [if_neg hm, ih fun m hm => h m (List.mem_cons_of_mem _ hm)]
      simp only [List.map_cons, List.mem_cons, hne, false_or]

theorem mem_of_get?_record {members : List (String × Json)} {j : Json}
    (h : (record members).get? name = some j) : (name, j) ∈ members := by
  obtain ⟨⟨n, j'⟩, hfound, rfl⟩ := Option.map_eq_some_iff.mp h
  obtain ⟨⟨n', j''⟩, hm, he⟩ := List.mem_map.mp (List.mem_of_find?_eq_some hfound)
  obtain ⟨rfl, rfl⟩ := Prod.mk.inj he
  have hname := List.find?_some hfound
  simp only [beq_iff_eq, Option.some.injEq] at hname
  exact hname ▸ hm

theorem fields?_object {ms : List (Str × Json)} (hsome : ∀ m ∈ ms, m.1.isSome = true)
    (honce : ∀ n ∈ names, occurrences ms n ≤ 1) :
    fields? names (.object ms) = some (names.map (object ms).get?) := by
  rw [fields?, if_pos]
  rw [Bool.and_eq_true]
  exact ⟨List.all_eq_true.mpr hsome, List.all_eq_true.mpr fun n hn => by simpa using honce n hn⟩

theorem fields?_of_twice {ms : List (Str × Json)} (hname : name ∈ names)
    (h : 2 ≤ occurrences ms name) : fields? names (.object ms) = none := by
  rw [fields?, if_neg]
  rw [Bool.and_eq_true]
  rintro ⟨-, hall⟩
  have := List.all_eq_true.mp hall name hname
  simp only [decide_eq_true_eq] at this
  omega

end

end DiagramEditor.Json

import DiagramEditor.Proofs.Json.Widening

/-! Values are read back from their own texts, arrays and negative numbers included, if the doubles
in them are. -/
namespace DiagramEditor.Json

open Reader

theorem readsBack_bool (b : Bool) : ReadsBack (.bool b) := by
  cases b <;> rfl

theorem Numeral.read?_negative {n : Nat} (hpos : n ≠ 0) (h : n ≤ signedBound) :
    Numeral.read? ('-' :: Nat.toDigits 10 n) = some (.int (-n), []) := by
  refine Numeral.read?_eq_some_iff.mpr ⟨Nat.toDigits 10 n, [], [], [], none, ?_, rfl, rfl, ?_⟩
  · exact whole?_toDigits n
  · have hsign : (Numeral.sign ('-' :: Nat.toDigits 10 n)).1 = true := rfl
    rw [hsign, Numeral.numberOf, natOfDigits_toDigits, if_neg (by simp), if_pos (by simp [hpos, h])]

theorem readsBack_negative {n : Nat} (hpos : n ≠ 0) (h : n ≤ signedBound) :
    ReadsBack (.ofInt (-n)) := by
  obtain ⟨m, rfl⟩ := Nat.exists_eq_succ_of_ne_zero hpos
  have htext : (text (.ofInt (-(m + 1 : ℕ)))).toList = '-' :: Nat.toDigits 10 (m + 1) := by
    change ("-" ++ Nat.repr (m + 1)).toList = _
    rw [String.toList_append, Nat.toList_repr]
    rfl
  refine read?_of_value? htext rfl fun fuel => ?_
  rw [value?_plain (by decide) (by decide), plain?, if_neg (by decide), if_neg (by decide),
    if_neg (by decide), if_neg (by decide), Numeral.read?_negative hpos h]
  rfl

theorem readsBack_ofInt {n : Int} (hlow : -(signedBound : Int) ≤ n) (hhigh : n < wordBound) :
    ReadsBack (.ofInt n) := by
  by_cases hneg : n < 0
  · obtain ⟨m, rfl⟩ : ∃ m : ℕ, n = -m := ⟨n.natAbs, by omega⟩
    exact readsBack_negative (by omega) (by omega)
  · obtain ⟨m, rfl⟩ := Int.eq_ofNat_of_zero_le (Int.not_lt.mp hneg)
    exact readsBack_ofNat (Int.ofNat_lt.mp hhigh)

def listed : List String → String
  | [] => ""
  | [item] => item
  | item :: rest => item ++ "," ++ listed rest

def arrayText (items : List String) : String :=
  "[" ++ listed items ++ "]"

theorem text_array (items : List Json) : (array items).text = arrayText (items.map text) := by
  have hitems : itemsText items = listed (items.map text) := by
    induction items with
    | nil => rfl
    | cons j rest ih =>
      cases rest with
      | nil => rfl
      | cons k rest =>
        simp only [List.map_cons, itemsText, listed] at ih ⊢
        rw [ih]
  rw [text, hitems]
  rfl

theorem toList_listed_cons (item : String) (rest : List String) :
    ∃ behind, (listed (item :: rest)).toList = item.toList ++ behind ∧
      ((rest = [] ∧ behind = []) ∨ (rest ≠ [] ∧ behind = ',' :: (listed rest).toList)) := by
  have hcomma : ",".toList = [','] := rfl
  cases rest with
  | nil => exact ⟨[], by rw [listed, List.append_nil], Or.inl ⟨rfl, rfl⟩⟩
  | cons m rest =>
    refine ⟨_, ?_, Or.inr ⟨List.cons_ne_nil _ _, rfl⟩⟩
    simp only [listed, String.toList_append, hcomma, List.append_assoc, List.singleton_append]

def itemsRead (items : List String) : List Json :=
  items.map fun item => (read? item).getD .null

theorem items?_listed {items : List String} (hne : items ≠ [])
    (h : ∀ item ∈ items, (read? item).isSome = true) {fuel : Nat}
    (hfuel : 2 * (listed items).toList.length + 3 ≤ fuel) (rest : List Char) :
    items? fuel (skipSpace ((listed items).toList ++ ']' :: rest)) =
      some (itemsRead items, rest) := by
  induction items generalizing fuel with
  | nil => exact absurd rfl hne
  | cons item items ih =>
    obtain ⟨fuel, rfl⟩ : ∃ n, fuel = n + 1 := ⟨fuel - 1, by omega⟩
    obtain ⟨hitem, hitems⟩ := List.forall_mem_cons.mp h
    obtain ⟨j, hj⟩ := Option.isSome_iff_exists.mp hitem
    obtain ⟨behind, htext, hbehind⟩ := toList_listed_cons item items
    have hlength : (listed (item :: items)).toList.length = item.toList.length + behind.length := by
      rw [htext, List.length_append]
    have hdelimits : Delimits (behind ++ ']' :: rest) := by
      rcases hbehind with ⟨-, rfl⟩ | ⟨-, rfl⟩
      · exact delimits_bracket rest
      · exact delimits_comma _
    obtain ⟨r, hread, hr⟩ := value?_of_read? hdelimits hj (by omega : _ ≤ fuel)
    rw [htext, List.append_assoc]
    refine items?_eq_some_iff.mpr ⟨j, r, hread, ?_⟩
    rw [hr, itemsRead, List.map_cons, hj]
    rcases hbehind with ⟨rfl, rfl⟩ | ⟨hmore, rfl⟩
    · exact Or.inl ⟨rfl, rfl⟩
    · refine Or.inr ⟨(listed items).toList ++ ']' :: rest, itemsRead items, rfl, ?_, rfl⟩
      rw [List.length_cons] at hlength
      exact ih hmore hitems (by omega)

theorem value?_bracket (fuel : Nat) (cs : List Char) : value? fuel (']' :: cs) = none := by
  cases fuel with
  | zero => rfl
  | succ fuel => rw [value?_plain (by decide) (by decide)]; rfl

theorem read?_arrayText {items : List String}
    (h : ∀ item ∈ items, (read? item).isSome = true) :
    read? (arrayText items) = some (.array (itemsRead items)) := by
  have hraw : (arrayText items).toList = '[' :: ((listed items).toList ++ [']']) := by
    simp only [arrayText, String.toList_append]
    rfl
  by_cases hne : items = []
  · subst hne
    rfl
  -- the first item is read where the array would be closed, and no value starts with `]`
  have hopen : ∀ r, skipSpace ((listed items).toList ++ [']']) ≠ ']' :: r := by
    intro r he
    have hitems := items?_listed hne h (Nat.le_refl _) []
    rw [he] at hitems
    obtain ⟨j, behind, hv, -⟩ := items?_eq_some_iff.mp hitems
    rw [value?_bracket] at hv
    cases hv
  refine read?_eq_some_iff.mpr ⟨[], ?_, rfl⟩
  rw [hraw, skipSpace, List.dropWhile_cons_of_neg (by decide), value?_array hopen,
    items?_listed hne h]
  · rfl
  · simp only [List.length_cons, List.length_append]
    omega

theorem readsBack_array {items : List Json} (h : ∀ j ∈ items, ReadsBack j) :
    ReadsBack (.array items) := by
  have htexts : ∀ item ∈ items.map text, (read? item).isSome = true := by
    intro item hitem
    obtain ⟨j, hj, rfl⟩ := List.mem_map.mp hitem
    exact Option.isSome_iff_exists.mpr ⟨j, h j hj⟩
  rw [ReadsBack, text_array, read?_arrayText htexts, itemsRead, List.map_map]
  refine congrArg (fun js => some (array js)) ?_
  conv_rhs => rw [← List.map_id items]
  refine List.map_congr_left fun j hj => ?_
  exact congrArg (Option.getD · Json.null) (h j hj)

/-- The doubles that are read back from their texts. -/
def Kept (x : Float) : Prop := x.isFinite = true ∧ ReadsBack (.number (.real x))

theorem exists_record {members : List (Str × Json)} (h : ∀ m ∈ members, m.1.isSome = true) :
    ∃ ms, object members = record ms := by
  induction members with
  | nil => exact ⟨[], rfl⟩
  | cons m members ih =>
    obtain ⟨hm, hmembers⟩ := List.forall_mem_cons.mp h
    obtain ⟨name, j⟩ := m
    obtain ⟨name, rfl⟩ := Option.isSome_iff_exists.mp hm
    obtain ⟨ms, hms⟩ := ih hmembers
    refine ⟨(name, j) :: ms, ?_⟩
    rw [record, object.injEq] at hms ⊢
    rw [hms]
    rfl

theorem readsBack_of_whole {j : Json} (h : Whole Kept j) : ReadsBack j := by
  induction h with
  | null => exact readsBack_null
  | bool b => exact readsBack_bool b
  | int hlow hhigh => exact readsBack_ofInt hlow hhigh
  | real hx => exact hx.2
  | string s => exact readsBack_ofString s
  | array _ ih => exact readsBack_array ih
  | @object members hnames _ ih =>
    obtain ⟨ms, hms⟩ := exists_record hnames
    rw [hms]
    refine readsBack_record fun m hm => ih (some m.1, m.2) ?_
    rw [record, object.injEq] at hms
    exact hms ▸ List.mem_map_of_mem hm

end DiagramEditor.Json

import DiagramEditor.Json.Reader

/-! What is read of a text is read as well where the text is a part of a longer one: a value ends
before a comma or what closes an array or an object, and more fuel changes nothing. -/
namespace DiagramEditor.Json

/-- Nothing here could go on with a value. -/
def Delimits (rest : List Char) : Prop := ∀ c ∈ rest.head?, c = ',' ∨ c = ']' ∨ c = '\x7d'

theorem delimits_comma (rest : List Char) : Delimits (',' :: rest) :=
  fun _ h => Or.inl (Option.some.inj h).symm

theorem delimits_bracket (rest : List Char) : Delimits (']' :: rest) :=
  fun _ h => Or.inr (Or.inl (Option.some.inj h).symm)

theorem delimits_brace (rest : List Char) : Delimits ('\x7d' :: rest) :=
  fun _ h => Or.inr (Or.inr (Option.some.inj h).symm)

theorem Delimits.cases {rest : List Char} (h : Delimits rest) :
    rest = [] ∨ ∃ c more, rest = c :: more ∧ (c = ',' ∨ c = ']' ∨ c = '\x7d') := by
  cases rest with
  | nil => exact Or.inl rfl
  | cons c more => exact Or.inr ⟨c, more, rfl, h c rfl⟩

namespace Numeral

def exponentSign : List Char → Bool × List Char
  | '+' :: cs => (false, cs)
  | '-' :: cs => (true, cs)
  | cs => (false, cs)

theorem exponent?_cons {c : Char} (hc : (c == 'e' || c == 'E') = true) (cs : List Char) :
    exponent? (c :: cs) =
      if (digits (exponentSign cs).2).1.isEmpty then none
      else some (some
        (if (exponentSign cs).1 then -(natOfDigits (digits (exponentSign cs).2).1 : Int)
          else natOfDigits (digits (exponentSign cs).2).1), (digits (exponentSign cs).2).2) := by
  unfold exponent? exponentSign
  exact if_pos hc

theorem exponentSign_append {cs : List Char} (hne : cs ≠ []) (rest : List Char) :
    exponentSign (cs ++ rest) = ((exponentSign cs).1, (exponentSign cs).2 ++ rest) := by
  obtain ⟨c, cs, rfl⟩ := List.exists_cons_of_ne_nil hne
  by_cases hplus : c = '+'
  · subst hplus
    rfl
  by_cases hminus : c = '-'
  · subst hminus
    rfl
  have hplain : ∀ more, exponentSign (c :: more) = (false, c :: more) := fun more => by
    rw [exponentSign]
    · exact fun _ he => hplus (List.cons.inj he).1
    · exact fun _ he => hminus (List.cons.inj he).1
  rw [List.cons_append, hplain, hplain]
  rfl

def sign : List Char → Bool × List Char
  | '-' :: cs => (true, cs)
  | cs => (false, cs)

theorem sign_of_ne {c : Char} (hc : c ≠ '-') (cs : List Char) :
    sign (c :: cs) = (false, c :: cs) := by
  rw [sign]
  exact fun _ he => hc (List.cons.inj he).1

theorem sign_append {cs : List Char} (hne : cs ≠ []) (rest : List Char) :
    sign (cs ++ rest) = ((sign cs).1, (sign cs).2 ++ rest) := by
  obtain ⟨c, cs, rfl⟩ := List.exists_cons_of_ne_nil hne
  by_cases hminus : c = '-'
  · subst hminus
    rfl
  · rw [List.cons_append, sign_of_ne hminus, sign_of_ne hminus]
    rfl

theorem read?_eq_some_iff {cs r : List Char} {n : Number} : read? cs = some (n, r) ↔
    ∃ wholePart behindWhole fraction behindFraction exponent,
      whole? (sign cs).2 = some (wholePart, behindWhole) ∧
      fraction? behindWhole = some (fraction, behindFraction) ∧
      exponent? behindFraction = some (exponent, r) ∧
      n = numberOf (sign cs).1 wholePart fraction exponent := by
  have hread : read? cs = (whole? (sign cs).2).bind fun w => (fraction? w.2).bind fun f =>
      (exponent? f.2).bind fun e => some (numberOf (sign cs).1 w.1 f.1 e.1, e.2) := rfl
  simp only [hread, Option.bind_eq_some_iff, Prod.exists, Option.some.injEq, Prod.mk.injEq]
  constructor
  · rintro ⟨w, cs₁, hw, f, cs₂, hf, e, cs₃, he, hn, rfl⟩
    exact ⟨w, cs₁, f, cs₂, e, hw, hf, he, hn.symm⟩
  · rintro ⟨w, cs₁, f, cs₂, e, hw, hf, he, rfl⟩
    exact ⟨w, cs₁, hw, f, cs₂, hf, e, r, he, rfl, rfl⟩

end Numeral

namespace Reader

theorem unit?_four (a b c d : Char) (cs : List Char) :
    unit? (a :: b :: c :: d :: cs) = (unit? [a, b, c, d]).map fun p => (p.1, cs) := by
  simp only [unit?]
  cases hexDigit? a <;> cases hexDigit? b <;> cases hexDigit? c <;> cases hexDigit? d <;> rfl

theorem unit?_append {cs r : List Char} {n : Nat} (h : unit? cs = some (n, r)) (rest : List Char) :
    unit? (cs ++ rest) = some (n, r ++ rest) := by
  rcases cs with _ | ⟨a, _ | ⟨b, _ | ⟨c, _ | ⟨d, cs⟩⟩⟩⟩
  · cases h
  · cases h
  · cases h
  · cases h
  · rw [unit?_four] at h
    obtain ⟨⟨m, more⟩, hm, he⟩ := Option.map_eq_some_iff.mp h
    obtain ⟨rfl, rfl⟩ := Prod.mk.inj he
    exact (unit?_four a b c d _).trans (congrArg (Option.map fun p => (p.1, cs ++ rest)) hm)

def pair? (high : Nat) (cs : List Char) : Option (Option Char × List Char) :=
  match cs with
  | '\\' :: 'u' :: more => (unit? more).bind fun p =>
    if isLowSurrogate p.1 then some (some (combined high p.1), p.2) else some (none, cs)
  | _ => some (none, cs)

theorem escape?_unit (cs : List Char) : escape? ('u' :: cs) = (unit? cs).bind fun p =>
    if isLowSurrogate p.1 then some (none, p.2)
    else if isHighSurrogate p.1 then pair? p.1 p.2
    else some (some (Char.ofNat p.1), p.2) := by
  rfl

theorem escape?_simple {c : Char} (hc : c ≠ 'u') (cs : List Char) :
    escape? (c :: cs) = (simpleEscape? c).map fun e => (some e, cs) := by
  rw [escape?]
  exact hc

theorem pair?_of_ne {cs : List Char} (h : ∀ more, cs ≠ '\\' :: 'u' :: more) (high : Nat) :
    pair? high cs = some (none, cs) := by
  rw [pair?]
  exact h

theorem value?_emptyObject {cs r : List Char} (h : skipSpace cs = '\x7d' :: r) (fuel : Nat) :
    value? (fuel + 1) ('\x7b' :: cs) = some (.object [], r) := by
  simp only [value?, h]
  rfl

theorem value?_object {cs : List Char} (h : ∀ r, skipSpace cs ≠ '\x7d' :: r) (fuel : Nat) :
    value? (fuel + 1) ('\x7b' :: cs) =
      (members? fuel (skipSpace cs)).map fun found => (.object found.1, found.2) := by
  rw [value?, if_pos (beq_self_eq_true _)]
  split
  · next r he => exact absurd he (h r)
  · rfl

theorem value?_emptyArray {cs r : List Char} (h : skipSpace cs = ']' :: r) (fuel : Nat) :
    value? (fuel + 1) ('[' :: cs) = some (.array [], r) := by
  simp only [value?, h]
  rfl

theorem value?_array {cs : List Char} (h : ∀ r, skipSpace cs ≠ ']' :: r) (fuel : Nat) :
    value? (fuel + 1) ('[' :: cs) =
      (items? fuel (skipSpace cs)).map fun found => (.array found.1, found.2) := by
  rw [value?, if_neg (by decide), if_pos (beq_self_eq_true _)]
  split
  · next r he => exact absurd he (h r)
  · rfl

theorem items?_eq_some_iff {fuel : Nat} {cs r : List Char} {js : List Json} :
    items? (fuel + 1) cs = some (js, r) ↔ ∃ j behind, value? fuel cs = some (j, behind) ∧
      ((skipSpace behind = ']' :: r ∧ js = [j]) ∨ ∃ more js', skipSpace behind = ',' :: more ∧
        items? fuel (skipSpace more) = some (js', r) ∧ js = j :: js') := by
  rw [items?]
  constructor
  · intro h
    split at h
    · cases h
    · next j behind hv =>
      refine ⟨j, behind, hv, ?_⟩
      split at h
      · next more hs =>
        obtain ⟨rfl, rfl⟩ := Prod.mk.inj (Option.some.inj h)
        exact Or.inl ⟨hs, rfl⟩
      · next more hs =>
        obtain ⟨⟨js', r'⟩, hi, he⟩ := Option.map_eq_some_iff.mp h
        obtain ⟨rfl, rfl⟩ := Prod.mk.inj he
        exact Or.inr ⟨more, js', hs, hi, rfl⟩
      · cases h
  · rintro ⟨j, behind, hv, ⟨hs, rfl⟩ | ⟨more, js', hs, hi, rfl⟩⟩
    · simp only [hv, hs]
    · simp only [hv, hs, hi, Option.map_some]

theorem members?_eq_some_iff {fuel : Nat} {cs r : List Char} {ms : List (Str × Json)} :
    members? (fuel + 1) cs = some (ms, r) ↔ ∃ text name behind more j after, cs = '"' :: text ∧
      string? text = some (name, behind) ∧ skipSpace behind = ':' :: more ∧
      value? fuel (skipSpace more) = some (j, after) ∧
      ((skipSpace after = '\x7d' :: r ∧ ms = [(name, j)]) ∨ ∃ tail ms',
        skipSpace after = ',' :: tail ∧ members? fuel (skipSpace tail) = some (ms', r) ∧
        ms = (name, j) :: ms') := by
  rw [members?.eq_def]
  dsimp only
  constructor
  · intro h
    split at h
    · next text =>
      split at h
      · cases h
      · next name behind hn =>
        split at h
        · next more hs =>
          split at h
          · cases h
          · next j after hv =>
            refine ⟨text, name, behind, more, j, after, rfl, hn, hs, hv, ?_⟩
            split at h
            · next tail ht =>
              obtain ⟨rfl, rfl⟩ := Prod.mk.inj (Option.some.inj h)
              exact Or.inl ⟨ht, rfl⟩
            · next tail ht =>
              obtain ⟨⟨ms', r'⟩, hm, he⟩ := Option.map_eq_some_iff.mp h
              obtain ⟨rfl, rfl⟩ := Prod.mk.inj he
              exact Or.inr ⟨tail, ms', ht, hm, rfl⟩
            · cases h
        · cases h
    · cases h
  · rintro ⟨text, name, behind, more, j, after, rfl, hn, hs, hv, ⟨ht, rfl⟩ |
      ⟨tail, ms', ht, hm, rfl⟩⟩
    · simp only [hn, hs, hv, ht]
    · simp only [hn, hs, hv, ht, hm, Option.map_some]

def plain? (c : Char) (cs : List Char) : Option (Json × List Char) :=
  if c == '"' then (string? cs).map fun found => (.string found.1, found.2)
  else if c == 'n' then (keyword? ['u', 'l', 'l'] cs).map fun rest => (.null, rest)
  else if c == 't' then (keyword? ['r', 'u', 'e'] cs).map fun rest => (.bool true, rest)
  else if c == 'f' then (keyword? ['a', 'l', 's', 'e'] cs).map fun rest => (.bool false, rest)
  else (Numeral.read? (c :: cs)).map fun found => (.number found.1, found.2)

theorem value?_plain {c : Char} (hobject : c ≠ '\x7b') (harray : c ≠ '[') (fuel : Nat)
    (cs : List Char) : value? (fuel + 1) (c :: cs) = plain? c cs := by
  rw [value?, if_neg (by simpa using hobject), if_neg (by simpa using harray)]
  rfl

theorem value?_nil (fuel : Nat) : value? fuel [] = none := by
  cases fuel <;> rfl

theorem items?_nil (fuel : Nat) : items? fuel [] = none := by
  cases fuel with
  | zero => rfl
  | succ fuel => rw [items?, value?_nil]

theorem members?_nil (fuel : Nat) : members? fuel [] = none := by
  cases fuel <;> rfl

end Reader

section
variable {rest : List Char} (hrest : Delimits rest)
include hrest

namespace Numeral

theorem digits_append (cs : List Char) :
    digits (cs ++ rest) = ((digits cs).1, (digits cs).2 ++ rest) := by
  simp only [digits]
  induction cs with
  | nil =>
    rcases hrest.cases with rfl | ⟨c, more, rfl, rfl | rfl | rfl⟩ <;> rfl
  | cons c cs ih =>
    rw [Prod.mk.injEq] at ih
    by_cases hc : c.isDigit = true
    · simp only [List.cons_append, List.takeWhile_cons_of_pos hc, List.dropWhile_cons_of_pos hc,
        ih.1, ih.2]
    · simp only [List.cons_append, List.takeWhile_cons_of_neg hc, List.dropWhile_cons_of_neg hc]

theorem whole?_append {cs found r : List Char} (h : whole? cs = some (found, r)) :
    whole? (cs ++ rest) = some (found, r ++ rest) := by
  rw [whole?] at h
  rw [whole?, digits_append hrest]
  generalize digits cs = all at h
  obtain ⟨ds, behind⟩ := all
  split at h
  · cases h
  · next more _ heq =>
    obtain ⟨rfl, rfl⟩ := Prod.mk.inj heq
    cases more with
    | nil =>
      obtain ⟨rfl, rfl⟩ := Prod.mk.inj (Option.some.inj h)
      rfl
    | cons d more => cases h
  · next hnil hzero =>
    obtain ⟨rfl, rfl⟩ := Prod.mk.inj (Option.some.inj h)
    split
    · next heq =>
      obtain rfl : ds = [] := congrArg Prod.fst heq
      exact (hnil behind rfl).elim
    · next more _ heq =>
      obtain rfl : ds = '0' :: more := congrArg Prod.fst heq
      exact (hzero more behind rfl).elim
    · rfl

theorem fraction?_append {cs found r : List Char} (h : fraction? cs = some (found, r)) :
    fraction? (cs ++ rest) = some (found, r ++ rest) := by
  cases cs with
  | nil =>
    obtain ⟨rfl, rfl⟩ := Prod.mk.inj (Option.some.inj h)
    rcases hrest.cases with rfl | ⟨c, more, rfl, rfl | rfl | rfl⟩ <;> rfl
  | cons c cs =>
    by_cases hc : c = '.'
    · subst hc
      simp only [List.cons_append, fraction?, digits_append hrest] at h ⊢
      generalize digits cs = all at h
      split at h
      · cases h
      · next hne =>
        rw [if_neg hne]
        obtain rfl := Option.some.inj h
        rfl
    · have hplain : ∀ more, fraction? (c :: more) = some ([], c :: more) := fun more => by
        rw [fraction?]
        exact fun _ he => hc (List.cons.inj he).1
      rw [hplain] at h
      obtain ⟨rfl, rfl⟩ := Prod.mk.inj (Option.some.inj h)
      exact hplain _

theorem exponent?_append {cs r : List Char} {e : Option Int} (h : exponent? cs = some (e, r)) :
    exponent? (cs ++ rest) = some (e, r ++ rest) := by
  cases cs with
  | nil =>
    obtain ⟨rfl, rfl⟩ := Prod.mk.inj (Option.some.inj h)
    rcases hrest.cases with rfl | ⟨c, more, rfl, rfl | rfl | rfl⟩ <;> rfl
  | cons c cs =>
    by_cases hc : (c == 'e' || c == 'E') = true
    · rw [exponent?_cons hc] at h
      have hne : cs ≠ [] := by
        rintro rfl
        cases h
      rw [List.cons_append, exponent?_cons hc, exponentSign_append hne, digits_append hrest]
      split at h
      · cases h
      · next hsome =>
        obtain ⟨rfl, rfl⟩ := Prod.mk.inj (Option.some.inj h)
        rw [if_neg hsome]
    · have hplain : ∀ more, exponent? (c :: more) = some (none, c :: more) := fun more => by
        simp only [exponent?, if_neg hc]
      rw [hplain] at h
      obtain ⟨rfl, rfl⟩ := Prod.mk.inj (Option.some.inj h)
      exact hplain _

theorem read?_append {cs r : List Char} {n : Number} (h : read? cs = some (n, r)) :
    read? (cs ++ rest) = some (n, r ++ rest) := by
  obtain ⟨w, cs₁, f, cs₂, e, hw, hf, he, hn⟩ := read?_eq_some_iff.mp h
  have hne : cs ≠ [] := by
    rintro rfl
    cases hw
  have hsign := sign_append hne rest
  refine read?_eq_some_iff.mpr ⟨w, cs₁ ++ rest, f, cs₂ ++ rest, e, ?_, fraction?_append hrest hf,
    exponent?_append hrest he, by rw [hsign]; exact hn⟩
  rw [hsign]
  exact whole?_append hrest hw

end Numeral

namespace Reader

theorem pair?_append {high : Nat} {cs r : List Char} {e : Option Char}
    (h : pair? high cs = some (e, r)) : pair? high (cs ++ rest) = some (e, r ++ rest) := by
  by_cases hp : ∃ more, cs = '\\' :: 'u' :: more
  · obtain ⟨more, rfl⟩ := hp
    simp only [List.cons_append, pair?] at h ⊢
    obtain ⟨⟨n, behind⟩, hn, he⟩ := Option.bind_eq_some_iff.mp h
    rw [unit?_append hn, Option.bind_some]
    dsimp only at he ⊢
    split at he
    · next hl =>
      obtain ⟨rfl, rfl⟩ := Prod.mk.inj (Option.some.inj he)
      rw [if_pos hl]
    · next hl =>
      obtain ⟨rfl, rfl⟩ := Prod.mk.inj (Option.some.inj he)
      rw [if_neg hl]
      rfl
  · -- the text behind could complete a second half, were it not for the delimiter
    have hcs : ∀ more, cs ≠ '\\' :: 'u' :: more := fun more he => hp ⟨more, he⟩
    have happend : ∀ more, cs ++ rest ≠ '\\' :: 'u' :: more := by
      intro more he
      rcases cs with _ | ⟨a, _ | ⟨b, cs⟩⟩
      · obtain rfl : rest = _ := he
        rcases hrest '\\' rfl with h | h | h <;> cases h
      · obtain ⟨rfl, rfl⟩ := List.cons.inj he
        rcases hrest 'u' rfl with h | h | h <;> cases h
      · obtain ⟨rfl, hmore⟩ := List.cons.inj he
        obtain ⟨rfl, -⟩ := List.cons.inj hmore
        exact hcs cs rfl
    rw [pair?_of_ne hcs] at h
    obtain ⟨rfl, rfl⟩ := Prod.mk.inj (Option.some.inj h)
    exact pair?_of_ne happend high

theorem escape?_append {cs r : List Char} {e : Option Char} (h : escape? cs = some (e, r)) :
    escape? (cs ++ rest) = some (e, r ++ rest) := by
  cases cs with
  | nil => cases h
  | cons c cs =>
    rw [List.cons_append]
    by_cases hc : c = 'u'
    · subst hc
      rw [escape?_unit] at h ⊢
      obtain ⟨⟨n, more⟩, hn, he⟩ := Option.bind_eq_some_iff.mp h
      rw [unit?_append hn, Option.bind_some]
      dsimp only at he ⊢
      split at he
      · next hl =>
        obtain ⟨rfl, rfl⟩ := Prod.mk.inj (Option.some.inj he)
        rw [if_pos hl]
      · next hl =>
        rw [if_neg hl]
        split at he
        · next hh => rw [if_pos hh, pair?_append hrest he]
        · next hh =>
          obtain ⟨rfl, rfl⟩ := Prod.mk.inj (Option.some.inj he)
          rw [if_neg hh]
    · rw [escape?_simple hc] at h ⊢
      obtain ⟨d, hd, he⟩ := Option.map_eq_some_iff.mp h
      obtain ⟨rfl, rfl⟩ := Prod.mk.inj he
      exact congrArg (Option.map fun e => (some e, cs ++ rest)) hd

theorem stringFrom_append {fuel fuel' : Nat} {acc : Option (List Char)} {cs r : List Char} {s : Str}
    (h : stringFrom fuel acc cs = some (s, r)) (hfuel : fuel ≤ fuel') :
    stringFrom fuel' acc (cs ++ rest) = some (s, r ++ rest) := by
  induction fuel generalizing fuel' acc cs with
  | zero => cases h
  | succ fuel ih =>
    obtain ⟨fuel', rfl⟩ : ∃ n, fuel' = n + 1 := ⟨fuel' - 1, by omega⟩
    cases cs with
    | nil => cases h
    | cons c cs =>
      rw [List.cons_append]
      rw [stringFrom] at h ⊢
      split at h
      · next hc =>
        obtain ⟨rfl, rfl⟩ := Prod.mk.inj (Option.some.inj h)
        rw [if_pos hc]
      · next hc =>
        rw [if_neg hc]
        split at h
        · next hb =>
          obtain ⟨⟨e, more⟩, he, hs⟩ := Option.bind_eq_some_iff.mp h
          rw [if_pos hb, escape?_append hrest he]
          exact ih hs (Nat.le_of_succ_le_succ hfuel)
        · next hb =>
          rw [if_neg hb]
          split at h
          · cases h
          · next hlow =>
            rw [if_neg hlow]
            exact ih h (Nat.le_of_succ_le_succ hfuel)

theorem string?_append {cs r : List Char} {s : Str} (h : string? cs = some (s, r)) :
    string? (cs ++ rest) = some (s, r ++ rest) :=
  stringFrom_append hrest h (by rw [List.length_append]; omega)

omit hrest in
theorem keyword?_append {word cs r : List Char} (h : keyword? word cs = some r) :
    keyword? word (cs ++ rest) = some (r ++ rest) := by
  rw [keyword?] at h ⊢
  split at h
  · next hw =>
    obtain rfl := Option.some.inj h
    obtain ⟨more, rfl⟩ := List.isPrefixOf_iff_prefix.mp hw
    rw [if_pos (List.isPrefixOf_iff_prefix.mpr ⟨more ++ rest, by rw [List.append_assoc]⟩),
      List.append_assoc, List.drop_left, List.drop_left]
  · cases h

omit hrest in
theorem map_append {α : Type} {found found' : Option (α × List Char)} {value : α → Json}
    (hfound : ∀ a r, found = some (a, r) → found' = some (a, r ++ rest)) {j : Json} {r : List Char}
    (h : (found.map fun x => (value x.1, x.2)) = some (j, r)) :
    (found'.map fun x => (value x.1, x.2)) = some (j, r ++ rest) := by
  obtain ⟨⟨a, r'⟩, ha, he⟩ := Option.map_eq_some_iff.mp h
  obtain ⟨rfl, rfl⟩ := Prod.mk.inj he
  rw [hfound a r' ha]
  rfl

omit hrest in
theorem keyword?_map_append {word cs r : List Char} {value j : Json}
    (h : ((keyword? word cs).map fun behind => (value, behind)) = some (j, r)) :
    ((keyword? word (cs ++ rest)).map fun behind => (value, behind)) = some (j, r ++ rest) := by
  obtain ⟨r', hw, he⟩ := Option.map_eq_some_iff.mp h
  obtain ⟨rfl, rfl⟩ := Prod.mk.inj he
  rw [keyword?_append hw]
  rfl

theorem plain?_append {c : Char} {cs r : List Char} {j : Json} (h : plain? c cs = some (j, r)) :
    plain? c (cs ++ rest) = some (j, r ++ rest) := by
  rw [plain?] at h ⊢
  split at h
  · next hstring =>
    rw [if_pos hstring]
    exact map_append (fun _ _ => string?_append hrest) h
  next hstring =>
  rw [if_neg hstring]
  split at h
  · next hnull =>
    rw [if_pos hnull]
    exact keyword?_map_append h
  next hnull =>
  rw [if_neg hnull]
  split at h
  · next htrue =>
    rw [if_pos htrue]
    exact keyword?_map_append h
  next htrue =>
  rw [if_neg htrue]
  split at h
  · next hfalse =>
    rw [if_pos hfalse]
    exact keyword?_map_append h
  next hfalse =>
  rw [if_neg hfalse]
  exact map_append (fun _ _ => Numeral.read?_append hrest) h

omit hrest in
theorem skipSpace_append {cs : List Char} (h : skipSpace cs ≠ []) :
    skipSpace (cs ++ rest) = skipSpace cs ++ rest := by
  rw [skipSpace, List.dropWhile_append, if_neg]
  · rfl
  · rwa [List.isEmpty_iff]

omit hrest in
theorem skipSpace_cons_append {cs more : List Char} {c : Char} (h : skipSpace cs = c :: more) :
    skipSpace (cs ++ rest) = c :: (more ++ rest) := by
  rw [skipSpace_append (by rw [h]; exact List.cons_ne_nil c more), h]
  rfl

omit hrest in
theorem skipSpace_append_ne {cs : List Char} {close : Char} (hne : skipSpace cs ≠ [])
    (h : ¬ ∃ r, skipSpace cs = close :: r) (r : List Char) :
    skipSpace (cs ++ rest) ≠ close :: r := by
  obtain ⟨c, more, hs⟩ := List.exists_cons_of_ne_nil hne
  rw [skipSpace_cons_append hs]
  exact fun he => h ⟨more, by rw [hs, (List.cons.inj he).1]⟩

/-- What is read with this fuel is read in the same way with more of it and more text behind. -/
def Extends {α : Type} (read : Nat → List Char → Option (α × List Char)) (rest : List Char)
    (fuel : Nat) : Prop :=
  ∀ {fuel' cs a r}, fuel ≤ fuel' → read fuel cs = some (a, r) →
    read fuel' (cs ++ rest) = some (a, r ++ rest)

omit hrest in
theorem Extends.behindSpace {α : Type} {read : Nat → List Char → Option (α × List Char)}
    {fuel fuel' : Nat} (he : Extends read rest fuel) (hnil : read fuel [] = none)
    (hfuel : fuel ≤ fuel') {cs r : List Char} {a : α} (h : read fuel (skipSpace cs) = some (a, r)) :
    read fuel' (skipSpace (cs ++ rest)) = some (a, r ++ rest) := by
  have hne : skipSpace cs ≠ [] := fun hs => by simp [hs, hnil] at h
  rw [skipSpace_append hne]
  exact he hfuel h

variable {fuel : Nat}

omit hrest in
theorem items?_extends (hv : Extends value? rest fuel) (hi : Extends items? rest fuel) :
    Extends items? rest (fuel + 1) := by
  intro fuel' cs js r hfuel h
  obtain ⟨fuel', rfl⟩ : ∃ n, fuel' = n + 1 := ⟨fuel' - 1, by omega⟩
  have hle : fuel ≤ fuel' := Nat.le_of_succ_le_succ hfuel
  obtain ⟨j, behind, hj, hend⟩ := items?_eq_some_iff.mp h
  refine items?_eq_some_iff.mpr ⟨j, behind ++ rest, hv hle hj, ?_⟩
  rcases hend with ⟨hs, rfl⟩ | ⟨more, js', hs, hmore, rfl⟩
  · exact Or.inl ⟨skipSpace_cons_append hs, rfl⟩
  · exact Or.inr ⟨more ++ rest, js', skipSpace_cons_append hs,
      hi.behindSpace (items?_nil fuel) hle hmore, rfl⟩

theorem members?_extends (hv : Extends value? rest fuel) (hm : Extends members? rest fuel) :
    Extends members? rest (fuel + 1) := by
  intro fuel' cs ms r hfuel h
  obtain ⟨fuel', rfl⟩ : ∃ n, fuel' = n + 1 := ⟨fuel' - 1, by omega⟩
  have hle : fuel ≤ fuel' := Nat.le_of_succ_le_succ hfuel
  obtain ⟨text, name, behind, more, j, after, rfl, hname, hcolon, hj, hend⟩ :=
    members?_eq_some_iff.mp h
  refine members?_eq_some_iff.mpr ⟨text ++ rest, name, behind ++ rest, more ++ rest, j,
    after ++ rest, rfl, string?_append hrest hname, skipSpace_cons_append hcolon,
    hv.behindSpace (value?_nil fuel) hle hj, ?_⟩
  rcases hend with ⟨hs, rfl⟩ | ⟨tail, ms', hs, hmore, rfl⟩
  · exact Or.inl ⟨skipSpace_cons_append hs, rfl⟩
  · exact Or.inr ⟨tail ++ rest, ms', skipSpace_cons_append hs,
      hm.behindSpace (members?_nil fuel) hle hmore, rfl⟩

theorem value?_extends (hi : Extends items? rest fuel) (hm : Extends members? rest fuel) :
    Extends value? rest (fuel + 1) := by
  intro fuel' cs j r hfuel h
  obtain ⟨fuel', rfl⟩ : ∃ n, fuel' = n + 1 := ⟨fuel' - 1, by omega⟩
  have hle : fuel ≤ fuel' := Nat.le_of_succ_le_succ hfuel
  cases cs with
  | nil => cases h
  | cons c cs =>
    rw [List.cons_append]
    by_cases hobject : c = '\x7b'
    · subst hobject
      by_cases hempty : ∃ r, skipSpace cs = '\x7d' :: r
      · obtain ⟨r', hs⟩ := hempty
        rw [value?_emptyObject hs] at h
        obtain ⟨rfl, rfl⟩ := Prod.mk.inj (Option.some.inj h)
        exact value?_emptyObject (skipSpace_cons_append hs) fuel'
      · rw [value?_object fun r he => hempty ⟨r, he⟩] at h
        have hne : skipSpace cs ≠ [] := fun he => by simp [he, members?_nil] at h
        rw [value?_object (skipSpace_append_ne hne hempty)]
        exact map_append (fun _ _ => hm.behindSpace (members?_nil fuel) hle) h
    by_cases harray : c = '['
    · subst harray
      by_cases hempty : ∃ r, skipSpace cs = ']' :: r
      · obtain ⟨r', hs⟩ := hempty
        rw [value?_emptyArray hs] at h
        obtain ⟨rfl, rfl⟩ := Prod.mk.inj (Option.some.inj h)
        exact value?_emptyArray (skipSpace_cons_append hs) fuel'
      · rw [value?_array fun r he => hempty ⟨r, he⟩] at h
        have hne : skipSpace cs ≠ [] := fun he => by simp [he, items?_nil] at h
        rw [value?_array (skipSpace_append_ne hne hempty)]
        exact map_append (fun _ _ => hi.behindSpace (items?_nil fuel) hle) h
    rw [value?_plain hobject harray] at h ⊢
    exact plain?_append hrest h

theorem reading_extends (fuel : Nat) :
    Extends value? rest fuel ∧ Extends items? rest fuel ∧ Extends members? rest fuel := by
  induction fuel with
  | zero =>
    refine ⟨fun _ h => ?_, fun _ h => ?_, fun _ h => ?_⟩
    · cases h
    · cases h
    · cases h
  | succ fuel ih =>
    obtain ⟨hv, hi, hm⟩ := ih
    exact ⟨value?_extends hrest hi hm, items?_extends hv hi, members?_extends hrest hv hm⟩

end Reader

open Reader

omit hrest in
theorem read?_eq_some_iff {raw : String} {j : Json} : read? raw = some j ↔
    ∃ r, value? (2 * raw.toList.length + 2) (skipSpace raw.toList) = some (j, r) ∧
      skipSpace r = [] := by
  rw [read?]
  cases value? (2 * raw.toList.length + 2) (skipSpace raw.toList) with
  | none => simp
  | some found =>
    obtain ⟨j', r⟩ := found
    simp only [Option.some.injEq, Prod.mk.injEq, List.isEmpty_iff]
    constructor
    · intro h
      split at h
      · next hr => exact ⟨r, ⟨Option.some.inj h, rfl⟩, hr⟩
      · cases h
    · rintro ⟨r', ⟨rfl, rfl⟩, hr⟩
      rw [if_pos hr]

theorem value?_of_read? {raw : String} {j : Json} (h : read? raw = some j) {fuel : Nat}
    (hfuel : 2 * raw.toList.length + 2 ≤ fuel) :
    ∃ r, value? fuel (skipSpace (raw.toList ++ rest)) = some (j, r) ∧ skipSpace r = rest := by
  obtain ⟨r, hv, hr⟩ := read?_eq_some_iff.mp h
  refine ⟨r ++ rest, Extends.behindSpace (reading_extends hrest _).1 (value?_nil _) hfuel hv, ?_⟩
  rw [skipSpace, List.dropWhile_append]
  rw [skipSpace] at hr
  rw [hr]
  rcases hrest.cases with rfl | ⟨c, more, rfl, rfl | rfl | rfl⟩ <;> rfl

end

end DiagramEditor.Json

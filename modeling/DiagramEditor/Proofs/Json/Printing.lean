import DiagramEditor.Json.Printer
import DiagramEditor.Proofs.Json.Reading
import Mathlib.Data.List.Basic
import Mathlib.Data.List.TakeWhile

/-! What is written is read back: strings, integers, and the objects whose members are read back. -/
namespace DiagramEditor.Json

open Reader

theorem unit?_hexEscape {n : Nat} (h : n < 0x20) :
    unit? ([n / 4096, n / 256, n / 16, n].map fun d => Nat.digitChar (d % 16)) = some (n, []) := by
  revert n
  decide

theorem escape?_hexEscape {n : Nat} (h : n < 0x20) (rest : List Char) :
    escape? ((hexEscape n).tail ++ rest) = some (some (Char.ofNat n), rest) := by
  have hlow : isLowSurrogate n = false := by
    simp only [isLowSurrogate, Bool.and_eq_false_iff, decide_eq_false_iff_not]
    omega
  have hhigh : isHighSurrogate n = false := by
    simp only [isHighSurrogate, Bool.and_eq_false_iff, decide_eq_false_iff_not]
    omega
  simp only [hexEscape, List.tail_cons, List.cons_append, escape?_unit,
    unit?_append (unit?_hexEscape h), List.nil_append, Option.bind_some, hlow, hhigh]
  rfl

theorem stringFrom_escape {c : Char} {cs rest : List Char} (h : escape? cs = some (some c, rest))
    (fuel : Nat) (acc : List Char) :
    stringFrom (fuel + 1) (some acc) ('\\' :: cs) = stringFrom fuel (some (c :: acc)) rest := by
  rw [stringFrom, if_neg (by decide), if_pos (by decide), h]
  rfl

theorem stringFrom_escaped (c : Char) (fuel : Nat) (acc rest : List Char) :
    stringFrom (fuel + 1) (some acc) (escaped c ++ rest) =
      stringFrom fuel (some (c :: acc)) rest := by
  unfold escaped
  split
  · next h =>
    subst h
    exact stringFrom_escape rfl fuel acc
  split
  · next h =>
    subst h
    exact stringFrom_escape rfl fuel acc
  split
  · next h =>
    subst h
    exact stringFrom_escape rfl fuel acc
  split
  · next h =>
    subst h
    exact stringFrom_escape rfl fuel acc
  split
  · next h =>
    subst h
    exact stringFrom_escape rfl fuel acc
  have hc : Char.ofNat c.toNat = c := Char.ofNat_toNat c
  split
  · next h =>
    rw [h] at hc
    exact stringFrom_escape (hc ▸ rfl) fuel acc
  split
  · next h =>
    rw [h] at hc
    exact stringFrom_escape (hc ▸ rfl) fuel acc
  split
  · next h =>
    have hread := escape?_hexEscape h rest
    rw [hc] at hread
    exact stringFrom_escape hread fuel acc
  · next hquote hslash _ _ _ _ _ hplain =>
    rw [List.singleton_append, stringFrom, if_neg (by simpa using hquote),
      if_neg (by simpa using hslash), if_neg hplain]
    rfl

theorem stringFrom_flatMap_escaped (cs acc rest : List Char) {fuel : Nat} (h : cs.length < fuel) :
    stringFrom fuel (some acc) (cs.flatMap escaped ++ '"' :: rest) =
      some (some (String.ofList (acc.reverse ++ cs)), rest) := by
  induction cs generalizing acc fuel with
  | nil =>
    obtain ⟨fuel, rfl⟩ : ∃ n, fuel = n + 1 := ⟨fuel - 1, by simp at h; omega⟩
    rw [List.flatMap_nil, List.nil_append, stringFrom, if_pos (by decide), List.append_nil]
    rfl
  | cons c cs ih =>
    obtain ⟨fuel, rfl⟩ : ∃ n, fuel = n + 1 := ⟨fuel - 1, by omega⟩
    rw [List.flatMap_cons, List.append_assoc, stringFrom_escaped,
      ih (c :: acc) (Nat.lt_of_succ_lt_succ h), List.reverse_cons, List.append_assoc]
    rfl

theorem length_le_flatMap_escaped (cs : List Char) : cs.length ≤ (cs.flatMap escaped).length := by
  have hone : ∀ c, 1 ≤ (escaped c).length := fun c => by
    unfold escaped
    repeat' split
    all_goals first | exact Nat.le_refl 1 | simp [hexEscape]
  induction cs with
  | nil => exact Nat.le_refl 0
  | cons c cs ih =>
    have := hone c
    rw [List.flatMap_cons, List.length_append, List.length_cons]
    omega

theorem string?_quoted (s : String) (rest : List Char) :
    Reader.string? (s.toList.flatMap escaped ++ '"' :: rest) = some (some s, rest) := by
  have hlength := length_le_flatMap_escaped s.toList
  have hfuel : s.toList.length < (s.toList.flatMap escaped ++ '"' :: rest).length + 1 := by
    rw [List.length_append]
    omega
  rw [Reader.string?, stringFrom_flatMap_escaped _ [] rest hfuel]
  exact congrArg (fun s => some (some s, rest)) (String.ofList_toList (s := s))

theorem natOfDigits_toDigits (n : Nat) : Numeral.natOfDigits (Nat.toDigits 10 n) = n := by
  have hfold : ∀ cs, Numeral.natOfDigits cs = Nat.ofDigitChars 10 cs 0 := fun cs => by
    rw [Nat.ofDigitChars_eq_foldl]
    simp only [Numeral.natOfDigits, Numeral.digitValue, Nat.mul_comm]
  rw [hfold, Nat.ofDigitChars_ten_toDigits]

theorem toDigits_head_ne_zero {n : Nat} (h : 0 < n) : (Nat.toDigits 10 n).head? ≠ some '0' := by
  induction n using Nat.strong_induction_on with
  | _ n ih =>
    by_cases hsmall : n < 10
    · rw [Nat.toDigits_of_lt_base hsmall]
      have hdigit : ∀ m < 10, 0 < m → [Nat.digitChar m].head? ≠ some '0' := by decide
      exact hdigit n hsmall h
    · rw [Nat.toDigits_of_base_le (by decide) (by omega)]
      have hne : Nat.toDigits 10 (n / 10) ≠ [] := Nat.toDigits_ne_nil
      rw [List.head?_append_of_ne_nil _ hne]
      exact ih (n / 10) (by omega) (by omega)

theorem digits_toDigits (n : Nat) :
    Numeral.digits (Nat.toDigits 10 n) = (Nat.toDigits 10 n, []) := by
  have hall : ∀ c ∈ Nat.toDigits 10 n, c.isDigit = true := fun c hc =>
    Nat.isDigit_of_mem_toDigits (by decide) (by decide) hc
  rw [Numeral.digits, List.takeWhile_eq_self_iff.mpr hall, List.dropWhile_eq_nil_iff.mpr hall]

theorem whole?_toDigits (n : Nat) :
    Numeral.whole? (Nat.toDigits 10 n) = some (Nat.toDigits 10 n, []) := by
  rw [Numeral.whole?, digits_toDigits]
  split
  · next h => exact absurd (congrArg Prod.fst h) Nat.toDigits_ne_nil
  · next more behind h =>
    obtain ⟨hdigits, rfl⟩ := Prod.mk.inj h
    have hzero : n = 0 := by
      by_contra hne
      have hhead := toDigits_head_ne_zero (Nat.pos_of_ne_zero hne)
      rw [hdigits] at hhead
      exact hhead rfl
    subst hzero
    rw [Nat.toDigits_zero] at hdigits ⊢
    rw [← (List.cons.inj hdigits).2]
    rfl
  · rfl

theorem value?_digit {c : Char} (h : c.isDigit = true) (fuel : Nat) (cs : List Char) :
    value? (fuel + 1) (c :: cs) =
      (Numeral.read? (c :: cs)).map fun found => (.number found.1, found.2) := by
  have hne : ∀ d, d.isDigit = false → c ≠ d := by
    rintro d hd rfl
    rw [h] at hd
    cases hd
  have hbeq : ∀ d, d.isDigit = false → ¬ (c == d) = true := fun d hd => by simpa using hne d hd
  rw [value?_plain (hne _ rfl) (hne _ rfl), plain?, if_neg (hbeq _ rfl), if_neg (hbeq _ rfl),
    if_neg (hbeq _ rfl), if_neg (hbeq _ rfl)]

theorem Numeral.read?_toDigits {n : Nat} (h : n < wordBound) :
    Numeral.read? (Nat.toDigits 10 n) = some (.int n, []) := by
  obtain ⟨c, cs, hcs⟩ := List.exists_cons_of_ne_nil (Nat.toDigits_ne_nil (n := n) (b := 10))
  have hdigit : c.isDigit = true :=
    Nat.isDigit_of_mem_toDigits (by decide) (by decide) (hcs ▸ List.mem_cons_self)
  have hminus : c ≠ '-' := by
    rintro rfl
    cases hdigit
  have hsign : Numeral.sign (Nat.toDigits 10 n) = (false, Nat.toDigits 10 n) := by
    rw [hcs, Numeral.sign_of_ne hminus]
  refine Numeral.read?_eq_some_iff.mpr ⟨Nat.toDigits 10 n, [], [], [], none, ?_, rfl, rfl, ?_⟩
  · rw [hsign, whole?_toDigits]
  · rw [hsign, Numeral.numberOf, natOfDigits_toDigits, if_pos (by simpa using h)]

/-- The value is read from its own text. -/
def ReadsBack (j : Json) : Prop := read? j.text = some j

theorem read?_of_value? {raw : String} {j : Json} {c : Char} {cs : List Char}
    (hraw : raw.toList = c :: cs) (hc : isSpace c = false)
    (h : ∀ fuel, value? (2 * fuel + 2) (c :: cs) = some (j, [])) : read? raw = some j := by
  refine read?_eq_some_iff.mpr ⟨[], ?_, rfl⟩
  rw [hraw, skipSpace, List.dropWhile_cons_of_neg (by simp [hc])]
  exact h _

theorem readsBack_null : ReadsBack .null := rfl

theorem readsBack_ofNat {n : Nat} (h : n < wordBound) : ReadsBack (.ofNat n) := by
  obtain ⟨c, cs, hcs⟩ := List.exists_cons_of_ne_nil (Nat.toDigits_ne_nil (n := n) (b := 10))
  have hdigit : c.isDigit = true :=
    Nat.isDigit_of_mem_toDigits (by decide) (by decide) (hcs ▸ List.mem_cons_self)
  have htext : (text (.ofNat n)).toList = c :: cs := by
    rw [← hcs]
    exact Nat.toList_repr
  refine read?_of_value? htext ?_ fun fuel => ?_
  · cases hspace : isSpace c with
    | false => rfl
    | true =>
      simp only [isSpace, Bool.or_eq_true, beq_iff_eq] at hspace
      rcases hspace with ((rfl | rfl) | rfl) | rfl <;> cases hdigit
  · rw [value?_digit hdigit, ← hcs, Numeral.read?_toDigits h]
    rfl

theorem toList_quoted (s : String) :
    (quoted s).toList = '"' :: (s.toList.flatMap escaped ++ ['"']) :=
  String.toList_ofList

theorem readsBack_ofString (s : String) : ReadsBack (.ofString s) := by
  refine read?_of_value? (toList_quoted s) rfl fun fuel => ?_
  rw [value?_plain (by decide) (by decide), plain?, if_pos (by decide), string?_quoted]
  rfl

def joined : List (String × String) → String
  | [] => ""
  | [(name, value)] => quoted name ++ ":" ++ value
  | (name, value) :: rest => quoted name ++ ":" ++ value ++ "," ++ joined rest

def objectText (members : List (String × String)) : String :=
  "\x7b" ++ joined members ++ "\x7d"

theorem membersText_eq_joined (members : List (String × Json)) :
    membersText (members.map fun m => (some m.1, m.2)) =
      joined (members.map fun m => (m.1, m.2.text)) := by
  induction members with
  | nil => rfl
  | cons m rest ih =>
    cases rest with
    | nil => rfl
    | cons n rest =>
      simp only [List.map_cons, membersText, joined] at ih ⊢
      rw [ih]
      rfl

theorem text_record (members : List (String × Json)) :
    (record members).text = objectText (members.map fun m => (m.1, m.2.text)) := by
  rw [record, text, membersText_eq_joined]
  rfl

def membersRead (members : List (String × String)) : List (Str × Json) :=
  members.map fun m => (some m.1, (read? m.2).getD .null)

theorem toList_joined_cons (name value : String) (rest : List (String × String)) :
    ∃ behind, (joined ((name, value) :: rest)).toList =
      '"' :: (name.toList.flatMap escaped ++ '"' :: ':' :: (value.toList ++ behind)) ∧
      ((rest = [] ∧ behind = []) ∨ (rest ≠ [] ∧ behind = ',' :: (joined rest).toList)) := by
  have hcolon : ":".toList = [':'] := rfl
  have hcomma : ",".toList = [','] := rfl
  cases rest with
  | nil =>
    refine ⟨[], ?_, Or.inl ⟨rfl, rfl⟩⟩
    simp only [joined, String.toList_append, toList_quoted, hcolon, List.cons_append,
      List.append_assoc, List.nil_append, List.append_nil]
  | cons m rest =>
    refine ⟨_, ?_, Or.inr ⟨List.cons_ne_nil _ _, rfl⟩⟩
    simp only [joined, String.toList_append, toList_quoted, hcolon, hcomma, List.cons_append,
      List.append_assoc, List.nil_append]

theorem skipSpace_joined {members : List (String × String)} (hne : members ≠ [])
    (rest : List Char) :
    skipSpace ((joined members).toList ++ rest) = (joined members).toList ++ rest := by
  obtain ⟨⟨name, value⟩, more, rfl⟩ := List.exists_cons_of_ne_nil hne
  obtain ⟨behind, htext, -⟩ := toList_joined_cons name value more
  rw [htext]
  rfl

theorem members?_joined {members : List (String × String)} (hne : members ≠ [])
    (h : ∀ m ∈ members, (read? m.2).isSome = true) {fuel : Nat}
    (hfuel : 2 * (joined members).toList.length + 2 ≤ fuel) (rest : List Char) :
    members? fuel ((joined members).toList ++ '\x7d' :: rest) =
      some (membersRead members, rest) := by
  induction members generalizing fuel with
  | nil => exact absurd rfl hne
  | cons m members ih =>
    obtain ⟨fuel, rfl⟩ : ∃ n, fuel = n + 1 := ⟨fuel - 1, by omega⟩
    obtain ⟨name, value⟩ := m
    obtain ⟨j, hj⟩ : ∃ j, read? value = some j :=
      Option.isSome_iff_exists.mp (h (name, value) List.mem_cons_self)
    have hvalue : (read? value).getD .null = j := by rw [hj]; rfl
    obtain ⟨behind, htext, hbehind⟩ := toList_joined_cons name value members
    have hlength : value.toList.length + behind.length + 2 ≤
        (joined ((name, value) :: members)).toList.length := by
      rw [htext]
      simp only [List.length_cons, List.length_append]
      omega
    have hdelimits : Delimits (behind ++ '\x7d' :: rest) := by
      rcases hbehind with ⟨-, rfl⟩ | ⟨-, rfl⟩
      · exact delimits_brace rest
      · exact delimits_comma _
    have hroom : 2 * value.toList.length + 2 ≤ fuel := by omega
    -- `r` starts with what spaces the text has behind its value
    obtain ⟨r, hread, hr⟩ := value?_of_read? hdelimits hj hroom
    refine members?_eq_some_iff.mpr ⟨_, some name,
      ':' :: (value.toList ++ (behind ++ '\x7d' :: rest)), _, j, r, ?_, string?_quoted name _, rfl,
      hread, ?_⟩
    · rw [htext]
      simp only [List.cons_append, List.append_assoc]
    · rw [hr]
      rcases hbehind with ⟨rfl, rfl⟩ | ⟨hmore, rfl⟩
      · exact Or.inl ⟨rfl, by rw [membersRead, List.map_singleton, hvalue]⟩
      · refine Or.inr ⟨(joined members).toList ++ '\x7d' :: rest, membersRead members, rfl, ?_, by
          rw [membersRead, List.map_cons, hvalue]; rfl⟩
        rw [skipSpace_joined hmore]
        refine ih hmore (fun m hm => h m (List.mem_cons_of_mem _ hm)) ?_
        rw [List.length_cons] at hlength
        omega

theorem read?_objectText {members : List (String × String)}
    (h : ∀ m ∈ members, (read? m.2).isSome = true) :
    read? (objectText members) = some (.object (membersRead members)) := by
  have hraw : (objectText members).toList = '\x7b' :: ((joined members).toList ++ ['\x7d']) := by
    simp only [objectText, String.toList_append]
    rfl
  by_cases hne : members = []
  · subst hne
    rfl
  refine read?_eq_some_iff.mpr ⟨[], ?_, rfl⟩
  have hskip := skipSpace_joined hne ['\x7d']
  have hopen : ∀ r, skipSpace ((joined members).toList ++ ['\x7d']) ≠ '\x7d' :: r := by
    obtain ⟨⟨name, value⟩, more, rfl⟩ := List.exists_cons_of_ne_nil hne
    obtain ⟨behind, htext, -⟩ := toList_joined_cons name value more
    intro r he
    rw [hskip, htext] at he
    cases (List.cons.inj he).1
  rw [hraw, skipSpace, List.dropWhile_cons_of_neg (by decide), value?_object hopen, hskip,
    members?_joined hne h]
  · rfl
  · simp only [List.length_cons, List.length_append]
    omega

theorem readsBack_record {members : List (String × Json)} (h : ∀ m ∈ members, ReadsBack m.2) :
    ReadsBack (record members) := by
  have htexts : ∀ m ∈ members.map fun m => (m.1, m.2.text), (read? m.2).isSome = true := by
    intro m hm
    obtain ⟨⟨name, value⟩, hmember, rfl⟩ := List.mem_map.mp hm
    exact Option.isSome_iff_exists.mpr ⟨value, h _ hmember⟩
  rw [ReadsBack, text_record, read?_objectText htexts, membersRead, List.map_map]
  refine congrArg (fun ms => some (object ms)) (List.map_congr_left fun m hm => ?_)
  exact Prod.ext rfl (congrArg (Option.getD · Json.null) (h m hm))

end DiagramEditor.Json

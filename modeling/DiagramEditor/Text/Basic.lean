/-!
Texts as lists of characters. Blank characters are those with the Unicode property `White_Space`;
trimming drops them at both ends of a text. Lower case is that of ASCII letters alone. A text can be
cut in front of the first byte of a character and at its end; everywhere else a cut would fall
inside a character or past the end.
-/
namespace DiagramEditor.Text

def blankRanges : List (Nat × Nat) :=
  [(0x9, 0xD), (0x20, 0x20), (0x85, 0x85), (0xA0, 0xA0), (0x1680, 0x1680), (0x2000, 0x200A),
    (0x2028, 0x2029), (0x202F, 0x202F), (0x205F, 0x205F), (0x3000, 0x3000)]

def isBlank (c : Char) : Bool :=
  blankRanges.any fun (low, high) => low ≤ c.toNat && c.toNat ≤ high

def dropEndWhile (p : Char → Bool) (cs : List Char) : List Char :=
  (cs.reverse.dropWhile p).reverse

def trim (cs : List Char) : List Char :=
  dropEndWhile isBlank (cs.dropWhile isBlank)

def trimmed (s : String) : String :=
  String.ofList (trim s.toList)

def blank (s : String) : Bool :=
  s.toList.all isBlank

def asciiLower (s : String) : String :=
  String.ofList (s.toList.map Char.toLower)

def byteLength : List Char → Nat
  | [] => 0
  | c :: cs => c.utf8Size + byteLength cs

/-- The offset of the first character in a class; that of the end if there is none. -/
def offset (p : Char → Bool) : List Char → Nat
  | [] => 0
  | c :: cs => if p c then 0 else c.utf8Size + offset p cs

/-- Cuts a text in front of the byte at an offset. -/
def cut? : Nat → List Char → Option (List Char × List Char)
  | 0, cs => some ([], cs)
  | _ + 1, [] => none
  | n + 1, c :: cs =>
    if c.utf8Size ≤ n + 1 then
      (cut? (n + 1 - c.utf8Size) cs).map fun (before, after) => (c :: before, after)
    else none

theorem cut?_zero (cs : List Char) : cut? 0 cs = some ([], cs) := by
  cases cs <;> rfl

theorem cut?_byteLength (before after : List Char) :
    cut? (byteLength before) (before ++ after) = some (before, after) := by
  induction before with
  | nil => exact cut?_zero after
  | cons c cs ih =>
    obtain ⟨n, hn⟩ := Nat.exists_eq_succ_of_ne_zero (Nat.pos_iff_ne_zero.mp c.utf8Size_pos)
    have hlen : byteLength (c :: cs) = n + byteLength cs + 1 := by
      rw [byteLength, hn]
      omega
    have hrest : n + byteLength cs + 1 - c.utf8Size = byteLength cs := by omega
    rw [hlen, List.cons_append, cut?, if_pos (by omega), hrest, ih]
    rfl

theorem append_of_cut? {n : Nat} {cs before after : List Char}
    (h : cut? n cs = some (before, after)) : cs = before ++ after ∧ byteLength before = n := by
  induction cs generalizing n before with
  | nil =>
    cases n with
    | zero =>
      obtain ⟨rfl, rfl⟩ := Prod.mk.inj (Option.some.inj h)
      exact ⟨rfl, rfl⟩
    | succ n => cases h
  | cons c cs ih =>
    cases n with
    | zero =>
      obtain ⟨rfl, rfl⟩ := Prod.mk.inj (Option.some.inj h)
      exact ⟨rfl, rfl⟩
    | succ n =>
      rw [cut?] at h
      split at h
      · next hc =>
        obtain ⟨⟨first, rest⟩, hr, he⟩ := Option.map_eq_some_iff.mp h
        obtain ⟨rfl, rfl⟩ := Prod.mk.inj he
        obtain ⟨rfl, hb⟩ := ih hr
        refine ⟨rfl, ?_⟩
        rw [byteLength, hb]
        omega
      · cases h

theorem offset_eq (p : Char → Bool) (cs : List Char) :
    offset p cs = byteLength (cs.takeWhile fun c => !p c) := by
  induction cs with
  | nil => rfl
  | cons c cs ih =>
    by_cases hc : p c = true
    · simp [offset, hc, byteLength]
    · simp [offset, hc, byteLength, ih]

theorem cut?_offset (p : Char → Bool) (cs : List Char) :
    cut? (offset p cs) cs = some (cs.takeWhile (fun c => !p c), cs.dropWhile fun c => !p c) := by
  have h := cut?_byteLength (cs.takeWhile fun c => !p c) (cs.dropWhile fun c => !p c)
  rwa [List.takeWhile_append_dropWhile, ← offset_eq] at h

end DiagramEditor.Text

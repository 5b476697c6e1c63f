import DiagramEditor.Uuid
import Mathlib.Data.Nat.ModEq
import Mathlib.Tactic.IntervalCases
import Mathlib.Tactic.Ring

/-! The text of an identifier is read back as that identifier, so it tells identifiers apart. The
digits are read as they were written, the highest first, and the hyphens stand where the groups
meet. -/
namespace DiagramEditor.Uuid

section Digits

theorem digitValue?_digitChar {d : ℕ} (h : d < 16) : digitValue? (Nat.digitChar d) = some d := by
  interval_cases d <;> decide

theorem lowDigits_length (n value : ℕ) : (lowDigits n value).length = n := by
  induction n generalizing value with
  | zero => rfl
  | succ n ih => rw [lowDigits, List.length_append, ih, List.length_singleton]

theorem number?_append (high : ℕ) (cs ds : List Char) :
    number? high (cs ++ ds) = (number? high cs).bind fun n => number? n ds := by
  induction cs generalizing high with
  | nil => rfl
  | cons c cs ih =>
    simp only [List.cons_append, number?, ih]
    cases digitValue? c <;> rfl

theorem number?_lowDigits (high n value : ℕ) :
    number? high (lowDigits n value) = some (high * 16 ^ n + value % 16 ^ n) := by
  induction n generalizing value with
  | zero => rw [lowDigits, number?, pow_zero, Nat.mod_one, Nat.mul_one, Nat.add_zero]
  | succ n ih =>
    have hdigit : value % 16 < 16 := Nat.mod_lt _ (by decide)
    have hmod : value % 16 ^ (n + 1) = value / 16 % 16 ^ n * 16 + value % 16 := by
      rw [Nat.pow_succ', Nat.mod_mul, Nat.mul_comm, Nat.add_comm]
    rw [lowDigits, number?_append, ih, Option.bind_some, number?, digitValue?_digitChar hdigit,
      Option.bind_some, number?, hmod]
    congr 1
    ring

theorem ofDigits?_lowDigits (u : Uuid) : ofDigits? (lowDigits 32 u.value.toNat) = some u := by
  have hlt : u.value.toNat < 16 ^ 32 := u.value.isLt
  rw [ofDigits?, if_pos (lowDigits_length _ _), number?_lowDigits, Nat.zero_mul, Nat.zero_add,
    Nat.mod_eq_of_lt hlt, Option.map_some, BitVec.ofNat_toNat, BitVec.setWidth_eq]

end Digits

section Groups

/-- The characters from position `n` on that do not stand in the place of a hyphen. -/
def keep (n : ℕ) (cs : List Char) : List Char :=
  (cs.zipIdx n).filterMap fun (c, i) => if hyphens.contains i then none else some c

theorem keep_append (n : ℕ) (cs ds : List Char) :
    keep n (cs ++ ds) = keep n cs ++ keep (n + cs.length) ds := by
  rw [keep, List.zipIdx_append, List.filterMap_append, keep, keep]

theorem keep_cons (n : ℕ) (c : Char) (cs : List Char) :
    keep n (c :: cs) = if hyphens.contains n then keep (n + 1) cs else c :: keep (n + 1) cs := by
  by_cases h : hyphens.contains n = true <;>
    simp only [keep, List.zipIdx_cons, List.filterMap_cons, h, if_true, Bool.false_eq_true,
      if_false]

theorem keep_group {n : ℕ} {cs : List Char}
    (h : ∀ i < cs.length, hyphens.contains (n + i) = false) : keep n cs = cs := by
  induction cs generalizing n with
  | nil => rfl
  | cons c cs ih =>
    have hhead : hyphens.contains n = false := h 0 (Nat.succ_pos _)
    have htail : keep (n + 1) cs = cs := by
      apply ih
      intro i hi
      rw [Nat.add_assoc, Nat.add_comm 1 i]
      exact h (i + 1) (Nat.succ_lt_succ hi)
    rw [keep_cons, hhead, htail]
    rfl

def grouped (ds : List Char) : List Char :=
  let part := fun start size => (ds.drop start).take size
  part 0 8 ++ '-' :: part 8 4 ++ '-' :: part 12 4 ++ '-' :: part 16 4 ++ '-' :: part 20 12

variable {ds : List Char}

theorem part_length (h : ds.length = 32) {start size : ℕ} (hle : start + size ≤ 32) :
    ((ds.drop start).take size).length = size := by
  rw [List.length_take, List.length_drop, h]
  omega

theorem keep_part (h : ds.length = 32) (n start size : ℕ) (hle : start + size ≤ 32)
    (hfree : ∀ i < size, hyphens.contains (n + i) = false) :
    keep n ((ds.drop start).take size) = (ds.drop start).take size := by
  apply keep_group
  rwa [part_length h hle]

theorem keep_hyphen_part (h : ds.length = 32) (n start size : ℕ) (hle : start + size ≤ 32)
    (hn : hyphens.contains n = true) (hfree : ∀ i < size, hyphens.contains (n + 1 + i) = false) :
    keep n ('-' :: (ds.drop start).take size) = (ds.drop start).take size := by
  rw [keep_cons, if_pos hn, keep_part h _ _ _ hle hfree]

theorem grouped_length (h : ds.length = 32) : (grouped ds).length = 36 := by
  simp [grouped, h]

theorem grouped_hyphens (h : ds.length = 32) :
    hyphens.all (fun i => (grouped ds)[i]? == some '-') = true := by
  simp [hyphens, grouped, List.getElem?_append, h]

theorem parts_append (h : ds.length = 32) :
    (ds.drop 0).take 8 ++ (ds.drop 8).take 4 ++ (ds.drop 12).take 4 ++ (ds.drop 16).take 4 ++
      (ds.drop 20).take 12 = ds := by
  rw [List.drop_zero, ← List.take_add, ← List.take_add, ← List.take_add, ← List.take_add]
  exact List.take_of_length_le h.le

theorem keep_grouped (h : ds.length = 32) : keep 0 (grouped ds) = ds := by
  rw [grouped, keep_append, keep_append, keep_append, keep_append]
  simp only [List.length_append, List.length_cons, List.length_take, List.length_drop, h,
    Nat.reduceSub, Nat.min_def, Nat.reduceLeDiff, if_true, Nat.reduceAdd]
  rw [keep_part h 0 0 8 (by decide) (by decide),
    keep_hyphen_part h 8 8 4 (by decide) (by decide) (by decide),
    keep_hyphen_part h 13 12 4 (by decide) (by decide) (by decide),
    keep_hyphen_part h 18 16 4 (by decide) (by decide) (by decide),
    keep_hyphen_part h 23 20 12 (by decide) (by decide) (by decide)]
  exact parts_append h

theorem ofGroups?_grouped (h : ds.length = 32) : ofGroups? (grouped ds) = ofDigits? ds := by
  rw [ofGroups?, if_pos ⟨grouped_length h, grouped_hyphens h⟩]
  exact congrArg ofDigits? (keep_grouped h)

end Groups

theorem parse?_text (u : Uuid) : parse? u.text = some u := by
  have hlength := lowDigits_length 32 u.value.toNat
  have hchars : u.chars.length = 36 := grouped_length hlength
  rw [parse?, text, String.toList_ofList, ofChars?, if_neg (by omega), if_pos hchars]
  exact (ofGroups?_grouped hlength).trans (ofDigits?_lowDigits u)

theorem text_injective {u v : Uuid} (h : u.text = v.text) : u = v := by
  have hu := parse?_text u
  rw [h, parse?_text v] at hu
  exact (Option.some.inj hu).symm

end DiagramEditor.Uuid

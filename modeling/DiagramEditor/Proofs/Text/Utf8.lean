import DiagramEditor.Text.Utf8
import Mathlib.Data.List.Infix

/-! Reading bytes as UTF-8, against the encodings of the characters: what is read is the only text
whose characters are those encoded in the bytes, with one replacement character for each maximal run
of bytes that begins a character and cannot finish it. -/
namespace DiagramEditor.Text.Utf8

open String (utf8EncodeChar)

/-- The bytes begin the encoding of a character and do not finish it. -/
def Begins (bytes : List UInt8) : Prop :=
  bytes ≠ [] ∧ ∃ c more, more ≠ [] ∧ utf8EncodeChar c = bytes ++ more

/-- No character is encoded at the start of `bad ++ rest`, and `bad` is all of it that could still
have begun one, or its first byte if that could not. -/
structure Spoils (bad rest : List UInt8) : Prop where
  unread : ∀ c, ¬ utf8EncodeChar c <+: bad ++ rest
  size : bad.length = 1 ∨ Begins bad
  longest : ∀ more, more <+: bad ++ rest → Begins more → more.length ≤ bad.length

/-- Bytes and the text they hold, with a replacement character for every spoiled run. -/
inductive Lossy : List UInt8 → List Char → Prop
  | nil : Lossy [] []
  | char {c : Char} {rest : List UInt8} {text : List Char} : Lossy rest text →
      Lossy (utf8EncodeChar c ++ rest) (c :: text)
  | spoiled {bad rest : List UInt8} {text : List Char} : Spoils bad rest → Lossy rest text →
      Lossy (bad ++ rest) (replacement :: text)

namespace Pending

def Takes (p : Pending) (b : UInt8) : Prop := p.low ≤ b.toNat ∧ b.toNat ≤ p.high

def valueWith (p : Pending) (b : UInt8) : Nat := p.value * 64 + (b.toNat - 0x80)

def next (p : Pending) (b : UInt8) : Pending := ⟨p.owed - 1, 0x80, 0xBF, p.valueWith b⟩

end Pending

inductive Finishes : Pending → List UInt8 → Char → Prop
  | last {p : Pending} {b : UInt8} {c : Char} : p.Takes b → p.owed ≤ 1 →
      Char.ofNat (p.valueWith b) = c → Finishes p [b] c
  | more {p : Pending} {b : UInt8} {bytes : List UInt8} {c : Char} : p.Takes b → ¬ p.owed ≤ 1 →
      Finishes (p.next b) bytes c → Finishes p (b :: bytes) c

/-- The character takes these bytes, and is owed more than it can take of the rest. -/
inductive Stalls : Pending → List UInt8 → List UInt8 → Prop
  | here {p : Pending} {rest : List UInt8} : (∀ b ∈ rest.head?, ¬ p.Takes b) → Stalls p [] rest
  | more {p : Pending} {b : UInt8} {bytes rest : List UInt8} : p.Takes b → ¬ p.owed ≤ 1 →
      Stalls (p.next b) bytes rest → Stalls p (b :: bytes) rest

inductive Reads : List UInt8 → Char → Prop
  | single {b : UInt8} {c : Char} : lead b.toNat = .single c → Reads [b] c
  | opened {b : UInt8} {p : Pending} {bytes : List UInt8} {c : Char} :
      lead b.toNat = .opens p → Finishes p bytes c → Reads (b :: bytes) c

section Machine
variable {p : Pending} {bytes used rest : List UInt8} {c : Char} {b : UInt8}

theorem step_last (ht : p.Takes b) (ho : p.owed ≤ 1) :
    step (some p) b.toNat = ([Char.ofNat (p.valueWith b)], none) := by
  have ht' : p.low ≤ b.toNat ∧ b.toNat ≤ p.high := ht
  rw [step, if_pos ht']
  exact if_pos ho

theorem step_more (ht : p.Takes b) (ho : ¬ p.owed ≤ 1) :
    step (some p) b.toNat = ([], some (p.next b)) := by
  have ht' : p.low ≤ b.toNat ∧ b.toNat ≤ p.high := ht
  rw [step, if_pos ht']
  exact if_neg ho

theorem step_refused (ht : ¬ p.Takes b) :
    step (some p) b.toNat = (replacement :: (fresh b.toNat).1, (fresh b.toNat).2) := by
  have ht' : ¬ (p.low ≤ b.toNat ∧ b.toNat ≤ p.high) := ht
  rw [step, if_neg ht']

theorem Finishes.decodeFrom (h : Finishes p bytes c) :
    decodeFrom (some p) (bytes ++ rest) = c :: decode rest := by
  induction h with
  | last ht ho hc =>
    simp only [List.singleton_append, Utf8.decodeFrom, step_last ht ho, hc, decode]
  | more ht ho _ ih =>
    simp only [List.cons_append, Utf8.decodeFrom, step_more ht ho, List.nil_append, ih]

theorem Stalls.decodeFrom (h : Stalls p used rest) :
    decodeFrom (some p) (used ++ rest) = replacement :: decode rest := by
  induction h with
  | @here p rest hnot =>
    cases rest with
    | nil => rfl
    | cons b rest =>
      have hb : ¬ p.Takes b := hnot b rfl
      simp only [List.nil_append, List.cons_append, Utf8.decodeFrom, step_refused hb, decode]
      rfl
  | more ht ho _ ih =>
    simp only [List.cons_append, Utf8.decodeFrom, step_more ht ho, List.nil_append, ih]

theorem finishes_or_stalls (p : Pending) (bytes : List UInt8) :
    (∃ used rest c, bytes = used ++ rest ∧ Finishes p used c) ∨
      ∃ used rest, bytes = used ++ rest ∧ Stalls p used rest := by
  induction bytes generalizing p with
  | nil => exact Or.inr ⟨[], [], rfl, .here (by simp)⟩
  | cons b bytes ih =>
    by_cases ht : p.Takes b
    · by_cases ho : p.owed ≤ 1
      · exact Or.inl ⟨[b], bytes, _, rfl, .last ht ho rfl⟩
      · rcases ih (p.next b) with ⟨used, rest, c, rfl, h⟩ | ⟨used, rest, rfl, h⟩
        · exact Or.inl ⟨b :: used, rest, c, rfl, .more ht ho h⟩
        · exact Or.inr ⟨b :: used, rest, rfl, .more ht ho h⟩
    · exact Or.inr ⟨[], b :: bytes, rfl, .here (by simpa using ht)⟩

theorem Finishes.takes (h : Finishes p (b :: bytes) c) : p.Takes b := by
  cases h with
  | last ht _ _ => exact ht
  | more ht _ _ => exact ht

theorem Finishes.tail (h : Finishes p (b :: bytes) c) (ho : ¬ p.owed ≤ 1) :
    Finishes (p.next b) bytes c := by
  cases h with
  | last _ hle _ => exact absurd hle ho
  | more _ _ hf => exact hf

theorem Finishes.ne_nil (h : Finishes p bytes c) : bytes ≠ [] := by
  cases h with
  | last _ _ _ => exact List.cons_ne_nil _ _
  | more _ _ _ => exact List.cons_ne_nil _ _

def Pending.Open (p : Pending) : Prop := p.low ≤ p.high ∧ p.high < 256

theorem Pending.Open.next (p : Pending) (b : UInt8) : (p.next b).Open :=
  ⟨by simp [Pending.next], by simp [Pending.next]⟩

theorem Pending.Open.exists_takes (h : p.Open) : ∃ b, p.Takes b := by
  have hlow : (UInt8.ofNat p.low).toNat = p.low := by
    rw [UInt8.toNat_ofNat']
    exact Nat.mod_eq_of_lt (h.1.trans_lt h.2)
  exact ⟨UInt8.ofNat p.low, hlow.ge, hlow.trans_le h.1⟩

theorem Pending.Open.exists_finishes {p : Pending} (h : p.Open) :
    ∃ bytes c, Finishes p bytes c := by
  obtain ⟨b, ht⟩ := h.exists_takes
  by_cases ho : p.owed ≤ 1
  · exact ⟨[b], _, .last ht ho rfl⟩
  · have hless : (p.next b).owed < p.owed := by
      simp only [Pending.next]
      omega
    obtain ⟨bytes, c, hrest⟩ := (Pending.Open.next p b).exists_finishes
    exact ⟨b :: bytes, c, .more ht ho hrest⟩
termination_by p.owed

theorem Stalls.exists_finishes (h : Stalls p used rest) (hp : p.Open) :
    ∃ more c, more ≠ [] ∧ Finishes p (used ++ more) c := by
  induction h with
  | here _ =>
    obtain ⟨bytes, c, hf⟩ := hp.exists_finishes
    exact ⟨bytes, c, hf.ne_nil, hf⟩
  | more ht ho _ ih =>
    obtain ⟨more, c, hne, hf⟩ := ih (Pending.Open.next _ _)
    exact ⟨more, c, hne, .more ht ho hf⟩

theorem Stalls.length_lt (h : Stalls p used rest) {there missing : List UInt8}
    (hf : Finishes p (there ++ missing) c) (hthere : there <+: used ++ rest) :
    there.length ≤ used.length ∧ missing ≠ [] := by
  induction h generalizing there with
  | @here p rest hnot =>
    cases there with
    | nil => exact ⟨le_rfl, hf.ne_nil⟩
    | cons b there =>
      obtain ⟨tail, rfl⟩ := hthere
      exact absurd hf.takes (hnot b rfl)
  | @more p b used rest ht ho _ ih =>
    cases there with
    | nil => exact ⟨Nat.zero_le _, hf.ne_nil⟩
    | cons d there =>
      obtain ⟨rfl, htail⟩ := List.cons_prefix_cons.mp hthere
      obtain ⟨hle, hne⟩ := ih (hf.tail ho) htail
      exact ⟨Nat.succ_le_succ hle, hne⟩

end Machine

theorem lead_single {b : Nat} {c : Char} (h : lead b = .single c) :
    b < 0x80 ∧ c = Char.ofNat b := by
  unfold lead at h
  split_ifs at h with hb
  exact ⟨hb, (Lead.single.inj h).symm⟩

theorem lead_opens_iff {b : Nat} {p : Pending} : lead b = .opens p ↔
    (0xC2 ≤ b ∧ b < 0xE0 ∧ p = ⟨1, 0x80, 0xBF, b - 0xC0⟩) ∨
    (0xE0 ≤ b ∧ b < 0xF0 ∧
      p = ⟨2, if b = 0xE0 then 0xA0 else 0x80, if b = 0xED then 0x9F else 0xBF, b - 0xE0⟩) ∨
    (0xF0 ≤ b ∧ b < 0xF5 ∧
      p = ⟨3, if b = 0xF0 then 0x90 else 0x80, if b = 0xF4 then 0x8F else 0xBF, b - 0xF0⟩) := by
  unfold lead
  constructor
  · intro h
    split at h
    · cases h
    split at h
    · cases h
    split at h
    · exact Or.inl ⟨by omega, by omega, (Lead.opens.inj h).symm⟩
    split at h
    · exact Or.inr (Or.inl ⟨by omega, by omega, (Lead.opens.inj h).symm⟩)
    split at h
    · exact Or.inr (Or.inr ⟨by omega, by omega, (Lead.opens.inj h).symm⟩)
    · cases h
  · rintro (⟨hlow, hhigh, rfl⟩ | ⟨hlow, hhigh, rfl⟩ | ⟨hlow, hhigh, rfl⟩)
    · rw [if_neg (by omega), if_neg (by omega), if_pos hhigh]
    · rw [if_neg (by omega), if_neg (by omega), if_neg (by omega), if_pos hhigh]
    · rw [if_neg (by omega), if_neg (by omega), if_neg (by omega), if_neg (by omega), if_pos hhigh]

theorem open_of_lead {b : Nat} {p : Pending} (h : lead b = .opens p) : p.Open := by
  rcases lead_opens_iff.mp h with ⟨-, -, rfl⟩ | ⟨-, -, rfl⟩ | ⟨-, -, rfl⟩ <;>
    (constructor <;> dsimp only)
  · decide
  · decide
  · split <;> split <;> omega
  · split <;> omega
  · split <;> split <;> omega
  · split <;> omega

theorem toNat_ofNat_of_lt {n : Nat} (h : n < 256) : (UInt8.ofNat n).toNat = n := by
  rw [UInt8.toNat_ofNat']
  exact Nat.mod_eq_of_lt h

theorem ofNat_eq {n : Nat} {b : UInt8} (h : n = b.toNat) : UInt8.ofNat n = b := by
  rw [h, UInt8.ofNat_toNat]

theorem toNat_ofNat_of_valid {v : Nat} (h : v < 55296 ∨ 57343 < v ∧ v < 1114112) :
    (Char.ofNat v).toNat = v := by
  rw [Char.ofNat, dif_pos h]
  rfl

def Continues (b : UInt8) : Prop := 0x80 ≤ b.toNat ∧ b.toNat ≤ 0xBF

section Lengths
variable {b₀ b₁ b₂ b₃ : UInt8} {c : Char} {bytes : List UInt8}

theorem Finishes.of_last {p : Pending} {v : Nat} (ht : p.Takes b₁) (ho : p.owed ≤ 1)
    (hv : p.valueWith b₁ = v) : Finishes p [b₁] (Char.ofNat v) :=
  .last ht ho (hv ▸ rfl)

theorem reads_two (h₀ : 0xC2 ≤ b₀.toNat ∧ b₀.toNat < 0xE0) (h₁ : Continues b₁) :
    Reads [b₀, b₁] (Char.ofNat ((b₀.toNat - 0xC0) * 64 + (b₁.toNat - 0x80))) :=
  .opened (lead_opens_iff.mpr (Or.inl ⟨h₀.1, h₀.2, rfl⟩)) (.of_last h₁ (Nat.le_refl 1) rfl)

theorem reads_three (h₀ : 0xE0 ≤ b₀.toNat ∧ b₀.toNat < 0xF0)
    (h₁ : (if b₀.toNat = 0xE0 then 0xA0 else 0x80) ≤ b₁.toNat ∧
      b₁.toNat ≤ if b₀.toNat = 0xED then 0x9F else 0xBF) (h₂ : Continues b₂) :
    Reads [b₀, b₁, b₂] (Char.ofNat
      (((b₀.toNat - 0xE0) * 64 + (b₁.toNat - 0x80)) * 64 + (b₂.toNat - 0x80))) :=
  .opened (lead_opens_iff.mpr (Or.inr (Or.inl ⟨h₀.1, h₀.2, rfl⟩)))
    (.more h₁ (Nat.not_succ_le_self 1) (.of_last h₂ (Nat.le_refl 1) rfl))

theorem reads_four (h₀ : 0xF0 ≤ b₀.toNat ∧ b₀.toNat < 0xF5)
    (h₁ : (if b₀.toNat = 0xF0 then 0x90 else 0x80) ≤ b₁.toNat ∧
      b₁.toNat ≤ if b₀.toNat = 0xF4 then 0x8F else 0xBF)
    (h₂ : Continues b₂) (h₃ : Continues b₃) :
    Reads [b₀, b₁, b₂, b₃] (Char.ofNat
      ((((b₀.toNat - 0xF0) * 64 + (b₁.toNat - 0x80)) * 64 + (b₂.toNat - 0x80)) * 64 +
        (b₃.toNat - 0x80))) :=
  .opened (lead_opens_iff.mpr (Or.inr (Or.inr ⟨h₀.1, h₀.2, rfl⟩)))
    (.more h₁ (show ¬ 3 ≤ 1 by decide)
      (.more h₂ (Nat.not_succ_le_self 1) (.of_last h₃ (Nat.le_refl 1) rfl)))

theorem utf8EncodeChar_one (h₀ : b₀.toNat < 0x80) :
    utf8EncodeChar (Char.ofNat b₀.toNat) = [b₀] := by
  have hn := toNat_ofNat_of_valid (v := b₀.toNat) (by omega)
  simp only [utf8EncodeChar, Char.toNat_val, hn]
  rw [if_pos (by omega), UInt8.ofNat_toNat]

theorem utf8EncodeChar_two (h₀ : 0xC2 ≤ b₀.toNat ∧ b₀.toNat < 0xE0) (h₁ : Continues b₁) {v : Nat}
    (hv : (b₀.toNat - 0xC0) * 64 + (b₁.toNat - 0x80) = v) :
    utf8EncodeChar (Char.ofNat v) = [b₀, b₁] := by
  obtain ⟨hlow₁, hhigh₁⟩ := h₁
  have hn := toNat_ofNat_of_valid (v := v) (by omega)
  simp only [utf8EncodeChar, Char.toNat_val, hn]
  rw [if_neg (by omega), if_pos (by omega), ofNat_eq (b := b₀) (by omega),
    ofNat_eq (b := b₁) (by omega)]

theorem utf8EncodeChar_three (h₀ : 0xE0 ≤ b₀.toNat ∧ b₀.toNat < 0xF0)
    (h₁ : (if b₀.toNat = 0xE0 then 0xA0 else 0x80) ≤ b₁.toNat ∧
      b₁.toNat ≤ if b₀.toNat = 0xED then 0x9F else 0xBF) (h₂ : Continues b₂) {v : Nat}
    (hv : ((b₀.toNat - 0xE0) * 64 + (b₁.toNat - 0x80)) * 64 + (b₂.toNat - 0x80) = v) :
    utf8EncodeChar (Char.ofNat v) = [b₀, b₁, b₂] := by
  obtain ⟨hlow₂, hhigh₂⟩ := h₂
  -- the bounds of the second byte leave out what two bytes hold, and the surrogates
  have hbounds : 0x80 ≤ b₁.toNat ∧ b₁.toNat ≤ 0xBF ∧ (b₀.toNat = 0xE0 → 0xA0 ≤ b₁.toNat) ∧
      (b₀.toNat = 0xED → b₁.toNat ≤ 0x9F) := by
    split at h₁ <;> split at h₁ <;> omega
  have hn := toNat_ofNat_of_valid (v := v) (by omega)
  simp only [utf8EncodeChar, Char.toNat_val, hn]
  rw [if_neg (by omega), if_neg (by omega), if_pos (by omega), ofNat_eq (b := b₀) (by omega),
    ofNat_eq (b := b₁) (by omega), ofNat_eq (b := b₂) (by omega)]

theorem utf8EncodeChar_four (h₀ : 0xF0 ≤ b₀.toNat ∧ b₀.toNat < 0xF5)
    (h₁ : (if b₀.toNat = 0xF0 then 0x90 else 0x80) ≤ b₁.toNat ∧
      b₁.toNat ≤ if b₀.toNat = 0xF4 then 0x8F else 0xBF)
    (h₂ : Continues b₂) (h₃ : Continues b₃) {v : Nat}
    (hv : (((b₀.toNat - 0xF0) * 64 + (b₁.toNat - 0x80)) * 64 + (b₂.toNat - 0x80)) * 64 +
      (b₃.toNat - 0x80) = v) :
    utf8EncodeChar (Char.ofNat v) = [b₀, b₁, b₂, b₃] := by
  obtain ⟨hlow₂, hhigh₂⟩ := h₂
  obtain ⟨hlow₃, hhigh₃⟩ := h₃
  -- here they leave out what three bytes hold, and what is beyond every character
  have hbounds : 0x80 ≤ b₁.toNat ∧ b₁.toNat ≤ 0xBF ∧ (b₀.toNat = 0xF0 → 0x90 ≤ b₁.toNat) ∧
      (b₀.toNat = 0xF4 → b₁.toNat ≤ 0x8F) := by
    split at h₁ <;> split at h₁ <;> omega
  have hn := toNat_ofNat_of_valid (v := v) (by omega)
  simp only [utf8EncodeChar, Char.toNat_val, hn]
  rw [if_neg (by omega), if_neg (by omega), if_neg (by omega), ofNat_eq (b := b₀) (by omega),
    ofNat_eq (b := b₁) (by omega), ofNat_eq (b := b₂) (by omega), ofNat_eq (b := b₃) (by omega)]

end Lengths

theorem reads_utf8EncodeChar (c : Char) : Reads (utf8EncodeChar c) c := by
  have hc : Char.ofNat c.toNat = c := Char.ofNat_toNat c
  have hvalid : c.toNat < 55296 ∨ 57343 < c.toNat ∧ c.toNat < 1114112 := c.valid
  simp only [utf8EncodeChar, Char.toNat_val]
  generalize c.toNat = v at hc hvalid
  subst hc
  split_ifs
  · have h₀ : (UInt8.ofNat v).toNat = v := toNat_ofNat_of_lt (by omega)
    exact .single (by rw [h₀, lead, if_pos (by omega)])
  · have h₀ := toNat_ofNat_of_lt (show v / 64 % 32 + 192 < 256 by omega)
    have h₁ := toNat_ofNat_of_lt (show v % 64 + 128 < 256 by omega)
    generalize UInt8.ofNat (v / 64 % 32 + 192) = b₀ at h₀
    generalize UInt8.ofNat (v % 64 + 128) = b₁ at h₁
    have hv : v = (b₀.toNat - 0xC0) * 64 + (b₁.toNat - 0x80) := by omega
    rw [hv]
    exact reads_two (by omega) ⟨by omega, by omega⟩
  · have h₀ := toNat_ofNat_of_lt (show v / 4096 % 16 + 224 < 256 by omega)
    have h₁ := toNat_ofNat_of_lt (show v / 64 % 64 + 128 < 256 by omega)
    have h₂ := toNat_ofNat_of_lt (show v % 64 + 128 < 256 by omega)
    generalize UInt8.ofNat (v / 4096 % 16 + 224) = b₀ at h₀
    generalize UInt8.ofNat (v / 64 % 64 + 128) = b₁ at h₁
    generalize UInt8.ofNat (v % 64 + 128) = b₂ at h₂
    have hv : v = ((b₀.toNat - 0xE0) * 64 + (b₁.toNat - 0x80)) * 64 + (b₂.toNat - 0x80) := by omega
    rw [hv]
    refine reads_three (by omega) ⟨?_, ?_⟩ ⟨by omega, by omega⟩
    · split <;> omega
    · split <;> omega
  · have h₀ := toNat_ofNat_of_lt (show v / 262144 % 8 + 240 < 256 by omega)
    have h₁ := toNat_ofNat_of_lt (show v / 4096 % 64 + 128 < 256 by omega)
    have h₂ := toNat_ofNat_of_lt (show v / 64 % 64 + 128 < 256 by omega)
    have h₃ := toNat_ofNat_of_lt (show v % 64 + 128 < 256 by omega)
    generalize UInt8.ofNat (v / 262144 % 8 + 240) = b₀ at h₀
    generalize UInt8.ofNat (v / 4096 % 64 + 128) = b₁ at h₁
    generalize UInt8.ofNat (v / 64 % 64 + 128) = b₂ at h₂
    generalize UInt8.ofNat (v % 64 + 128) = b₃ at h₃
    have hv : v = (((b₀.toNat - 0xF0) * 64 + (b₁.toNat - 0x80)) * 64 + (b₂.toNat - 0x80)) * 64 +
        (b₃.toNat - 0x80) := by omega
    rw [hv]
    refine reads_four (by omega) ⟨?_, ?_⟩ ⟨by omega, by omega⟩ ⟨by omega, by omega⟩
    · split <;> omega
    · split <;> omega

theorem Finishes.eq_of_last {p : Pending} {bytes : List UInt8} {c : Char} (h : Finishes p bytes c)
    (ho : p.owed ≤ 1) : ∃ b v, bytes = [b] ∧ p.Takes b ∧ p.valueWith b = v ∧ c = Char.ofNat v := by
  cases h with
  | last ht _ hc => exact ⟨_, _, rfl, ht, rfl, hc.symm⟩
  | more _ h _ => exact absurd ho h

theorem Finishes.eq_of_more {p : Pending} {bytes : List UInt8} {c : Char} (h : Finishes p bytes c)
    (ho : ¬ p.owed ≤ 1) : ∃ b more, bytes = b :: more ∧ p.Takes b ∧ Finishes (p.next b) more c := by
  cases h with
  | last _ h _ => exact absurd h ho
  | more ht _ hf => exact ⟨_, _, rfl, ht, hf⟩

theorem Reads.utf8EncodeChar_eq {bytes : List UInt8} {c : Char} (h : Reads bytes c) :
    utf8EncodeChar c = bytes := by
  cases h with
  | @single b c hl =>
    obtain ⟨hb, hc⟩ := lead_single hl
    rw [hc, utf8EncodeChar_one hb]
  | @opened b₀ p bytes c hl hf =>
    rcases lead_opens_iff.mp hl with ⟨hlow, hhigh, rfl⟩ | ⟨hlow, hhigh, rfl⟩ | ⟨hlow, hhigh, rfl⟩
    · obtain ⟨b₁, v, rfl, h₁, hv, hc⟩ := hf.eq_of_last (Nat.le_refl 1)
      rw [hc, utf8EncodeChar_two ⟨hlow, hhigh⟩ h₁ hv]
    · obtain ⟨b₁, more, rfl, h₁, hf⟩ := hf.eq_of_more (Nat.not_succ_le_self 1)
      obtain ⟨b₂, v, rfl, h₂, hv, hc⟩ := hf.eq_of_last (Nat.le_refl 1)
      rw [hc, utf8EncodeChar_three ⟨hlow, hhigh⟩ h₁ h₂ hv]
    · obtain ⟨b₁, more, rfl, h₁, hf⟩ := hf.eq_of_more (show ¬ 3 ≤ 1 by decide)
      obtain ⟨b₂, more, rfl, h₂, hf⟩ := hf.eq_of_more (Nat.not_succ_le_self 1)
      obtain ⟨b₃, v, rfl, h₃, hv, hc⟩ := hf.eq_of_last (Nat.le_refl 1)
      rw [hc, utf8EncodeChar_four ⟨hlow, hhigh⟩ h₁ h₂ h₃ hv]

theorem reads_iff {bytes : List UInt8} {c : Char} : Reads bytes c ↔ utf8EncodeChar c = bytes :=
  ⟨Reads.utf8EncodeChar_eq, fun h => h ▸ reads_utf8EncodeChar c⟩

section Reading
variable {b : UInt8} {p : Pending} {bytes bad bad' used rest rest' : List UInt8} {c : Char}
  {text : List Char}

theorem Reads.ne_stray (h : Reads (b :: bytes) c) : lead b.toNat ≠ .stray := by
  cases h with
  | single hl => exact fun hs => by simp [hl] at hs
  | opened hl _ => exact fun hs => by simp [hl] at hs

theorem Reads.finishes (h : Reads (b :: bytes) c) (hl : lead b.toNat = .opens p) :
    Finishes p bytes c := by
  cases h with
  | single hs => simp [hl] at hs
  | opened ho hf =>
    obtain rfl := Lead.opens.inj (ho.symm.trans hl)
    exact hf

theorem Reads.decode (h : Reads bytes c) : decode (bytes ++ rest) = c :: decode rest := by
  cases h with
  | single hl => simp only [Utf8.decode, decodeFrom, step, fresh, hl, List.cons_append,
      List.nil_append]
  | opened hl hf =>
    simp only [Utf8.decode, List.cons_append, decodeFrom, step, fresh, hl, List.nil_append]
    exact hf.decodeFrom

theorem Reads.ne_nil (h : Reads bytes c) : bytes ≠ [] := by
  cases h with
  | single _ => exact List.cons_ne_nil _ _
  | opened _ _ => exact List.cons_ne_nil _ _

theorem spoils_of_reads (hsize : used = [] ∨ Begins (b :: used))
    (h : ∀ there missing c, there <+: used ++ rest → Reads (b :: (there ++ missing)) c →
      there.length ≤ used.length ∧ missing ≠ []) : Spoils (b :: used) rest where
  unread c hc := by
    have hr := reads_utf8EncodeChar c
    obtain ⟨d, there, he⟩ := List.exists_cons_of_ne_nil hr.ne_nil
    rw [he] at hr hc
    obtain ⟨rfl, hthere⟩ := List.cons_prefix_cons.mp hc
    exact (h there [] c hthere (by rwa [List.append_nil])).2 rfl
  size := hsize.imp_left fun hu => by rw [hu]; rfl
  longest more hp hb := by
    obtain ⟨hne, c, missing, -, he⟩ := hb
    obtain ⟨d, there, rfl⟩ := List.exists_cons_of_ne_nil hne
    obtain ⟨rfl, hthere⟩ := List.cons_prefix_cons.mp hp
    exact Nat.succ_le_succ (h there missing c hthere (reads_iff.mpr he)).1

theorem spoils_of_stray (hl : lead b.toNat = .stray) : Spoils [b] rest :=
  spoils_of_reads (Or.inl rfl) fun _ _ _ _ hr => absurd hl hr.ne_stray

theorem Stalls.spoils (h : Stalls p used rest) (hl : lead b.toNat = .opens p) :
    Spoils (b :: used) rest := by
  refine spoils_of_reads (Or.inr ⟨List.cons_ne_nil _ _, ?_⟩) fun there missing c hthere hr =>
    h.length_lt (hr.finishes hl) hthere
  obtain ⟨more, c, hne, hf⟩ := h.exists_finishes (open_of_lead hl)
  exact ⟨c, more, hne, (Reads.opened hl hf).utf8EncodeChar_eq⟩

theorem decode_cases (hne : bytes ≠ []) :
    (∃ c rest, bytes = utf8EncodeChar c ++ rest ∧ decode bytes = c :: decode rest) ∨
      ∃ bad rest, bytes = bad ++ rest ∧ Spoils bad rest ∧
        decode bytes = replacement :: decode rest := by
  obtain ⟨b, bytes, rfl⟩ := List.exists_cons_of_ne_nil hne
  have hreads : ∀ used rest c, bytes = used ++ rest → Reads (b :: used) c →
      ∃ c rest, b :: bytes = utf8EncodeChar c ++ rest ∧ decode (b :: bytes) = c :: decode rest := by
    rintro used rest c rfl hr
    exact ⟨c, rest, by rw [hr.utf8EncodeChar_eq]; rfl, hr.decode⟩
  cases hl : lead b.toNat with
  | single c => exact Or.inl (hreads [] bytes c rfl (.single hl))
  | stray =>
    refine Or.inr ⟨[b], bytes, rfl, spoils_of_stray hl, ?_⟩
    simp only [decode, decodeFrom, step, fresh, hl, List.singleton_append]
  | opens p =>
    rcases finishes_or_stalls p bytes with ⟨used, rest, c, hb, hf⟩ | ⟨used, rest, rfl, hs⟩
    · exact Or.inl (hreads used rest c hb (.opened hl hf))
    · refine Or.inr ⟨b :: used, rest, rfl, hs.spoils hl, ?_⟩
      simp only [decode, decodeFrom, step, fresh, hl, List.nil_append]
      exact hs.decodeFrom

theorem Spoils.ne_nil (h : Spoils bad rest) : bad ≠ [] := by
  rcases h.size with hone | ⟨hne, -⟩
  · exact List.ne_nil_of_length_eq_add_one hone
  · exact hne

theorem Spoils.length_le (h : Spoils bad rest) (h' : Spoils bad' rest')
    (heq : bad ++ rest = bad' ++ rest') : bad.length ≤ bad'.length := by
  rcases h.size with hone | hb
  · exact hone.trans_le (List.length_pos_of_ne_nil h'.ne_nil)
  · exact h'.longest bad ⟨rest, heq⟩ hb

theorem Spoils.eq_of_append_eq (h : Spoils bad rest) (h' : Spoils bad' rest')
    (heq : bad ++ rest = bad' ++ rest') : bad = bad' ∧ rest = rest' :=
  List.append_inj heq ((h.length_le h' heq).antisymm (h'.length_le h heq.symm))

theorem Spoils.decode (h : Spoils bad rest) :
    decode (bad ++ rest) = replacement :: decode rest := by
  rcases decode_cases (List.append_ne_nil_of_left_ne_nil h.ne_nil rest) with
    ⟨c, _, heq, -⟩ | ⟨bad', rest', heq, h', hd⟩
  · exact absurd ⟨_, heq.symm⟩ (h.unread c)
  · obtain ⟨-, rfl⟩ := h.eq_of_append_eq h' heq
    exact hd

theorem decode_utf8EncodeChar (c : Char) (rest : List UInt8) :
    Utf8.decode (utf8EncodeChar c ++ rest) = c :: Utf8.decode rest :=
  (reads_utf8EncodeChar c).decode

theorem Lossy.eq_decode (h : Lossy bytes text) : text = Utf8.decode bytes := by
  induction h with
  | nil => rfl
  | @char c rest text _ ih => rw [decode_utf8EncodeChar, ih]
  | spoiled hs _ ih => rw [hs.decode, ih]

theorem lossy_decode (bytes : List UInt8) : Lossy bytes (Utf8.decode bytes) := by
  induction hn : bytes.length using Nat.strong_induction_on generalizing bytes with
  | _ n ih =>
    have hrest : ∀ front rest, front ≠ [] → bytes = front ++ rest →
        Lossy rest (Utf8.decode rest) := by
      rintro front rest hf rfl
      have hpos := List.length_pos_of_ne_nil hf
      rw [List.length_append] at hn
      exact ih _ (by omega) rest rfl
    by_cases hne : bytes = []
    · subst hne
      exact .nil
    rcases decode_cases hne with ⟨c, rest, rfl, hd⟩ | ⟨bad, rest, rfl, hs, hd⟩
    · rw [hd]
      exact .char (hrest _ rest (reads_utf8EncodeChar c).ne_nil rfl)
    · rw [hd]
      exact .spoiled hs (hrest bad rest hs.ne_nil rfl)

theorem lossy_iff : Lossy bytes text ↔ text = Utf8.decode bytes :=
  ⟨Lossy.eq_decode, fun h => h ▸ lossy_decode bytes⟩

end Reading

theorem toList_loop_eq (bytes : ByteArray) (i : Nat) (taken : List UInt8) :
    ByteArray.toList.loop bytes i taken = taken.reverse ++ bytes.data.toList.drop i := by
  fun_induction ByteArray.toList.loop bytes i taken with
  | case1 i taken h ih =>
    have hi : i < bytes.data.toList.length := h
    have hget : bytes.get! i = bytes.data.toList[i] := getElem!_pos bytes.data i h
    rw [ih, List.drop_eq_getElem_cons hi, hget, List.reverse_cons, List.append_assoc]
    rfl
  | case2 i taken h =>
    have hi : bytes.data.toList.length ≤ i := Nat.le_of_not_lt h
    rw [List.drop_eq_nil_of_le hi, List.append_nil]

theorem toUTF8_toList (s : String) : s.toUTF8.toList = s.toList.flatMap utf8EncodeChar := by
  have hbytes : s.toByteArray = s.toList.utf8Encode := by
    rw [← String.toByteArray_ofList, String.ofList_toList]
  rw [ByteArray.toList, toList_loop_eq, String.toUTF8_eq_toByteArray, hbytes, List.utf8Encode,
    List.data_toByteArray]
  rfl

theorem lossy_flatMap (text : List Char) : Lossy (text.flatMap utf8EncodeChar) text := by
  induction text with
  | nil => exact .nil
  | cons c text ih => exact .char ih

theorem lossy_toUTF8 (s : String) : Lossy s.toUTF8.toList s.toList := by
  rw [toUTF8_toList]
  exact lossy_flatMap s.toList

end DiagramEditor.Text.Utf8

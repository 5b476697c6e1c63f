import DiagramEditor.Proofs.Geometry.Projection
import DiagramEditor.Proofs.Json.Equality
import DiagramEditor.Proofs.Settings
import DiagramEditor.Proofs.Uuid
import DiagramEditor.Form.Endpoint

/-! The options of an endpoint keep all that a drawing library needs of it. A limit is never taken
for the absence of one: what is beyond 64 bits with a sign becomes their largest number. -/
namespace DiagramEditor

open Json (Same)

theorem Anchor.name_injective {a b : Anchor} (h : a.name = b.name) : a = b := by
  cases a <;> cases b <;> first | rfl | exact absurd h (by decide)

namespace Wiring

theorem same_ofFloat_iff {x y : Float} (hx : Settings.isPositive x = true)
    (hy : Settings.isPositive y = true) : Same (.ofFloat x) (.ofFloat y) ↔ x = y := by
  rw [Json.same_ofFloat (Settings.isFinite_of_isPositive hx) (Settings.isFinite_of_isPositive hy)]
  have hpos := (Bool.and_eq_true_iff.mp hx).2
  exact Axis.beq_iff_eq_of_pos (of_decide_eq_true hpos)

theorem same_shapeOption {s t : Shape} (hs : Settings.shapeIsPositive s = true)
    (ht : Settings.shapeIsPositive t = true) : Same (shapeOption s) (shapeOption t) ↔ s = t := by
  cases s with
  | dot r =>
    cases t with
    | dot r' => simp [shapeOption, Json.same_record, same_ofFloat_iff hs ht]
    | rectangle w h => simp [shapeOption]
  | rectangle w h =>
    obtain ⟨hw, hh⟩ := Bool.and_eq_true_iff.mp hs
    cases t with
    | dot r => simp [shapeOption]
    | rectangle w' h' =>
      obtain ⟨hw', hh'⟩ := Bool.and_eq_true_iff.mp ht
      simp [shapeOption, Json.same_record, same_ofFloat_iff hw hw', same_ofFloat_iff hh hh']

theorem limitOption_some (n : ℕ) : limitOption (some n) = (min n maxSigned : ℕ) :=
  (Nat.cast_min n maxSigned).symm

/-- A limit leaves the options as a number of connections, the same one as long as it fits. -/
structure Passes (n : ℕ) (v : ℤ) : Prop where
  nonneg : 0 ≤ v
  limited : v ≠ unlimited
  le : v ≤ n
  eq_of_fits : n ≤ maxSigned → v = n

theorem limitOption_passes (n : ℕ) : Passes n (limitOption (some n)) := by
  have hle : min n maxSigned ≤ n := min_le_left _ _
  rw [limitOption_some]
  refine ⟨by omega, ?_, by omega, fun h => ?_⟩
  · rw [unlimited]
    omega
  · rw [min_eq_left h]

theorem limitOption_mono {m n : ℕ} (h : m ≤ n) :
    limitOption (some m) ≤ limitOption (some n) := by
  rw [limitOption_some, limitOption_some, Int.ofNat_le]
  exact min_le_min_right maxSigned h

theorem limitOption_inj {l m : Option ℕ} (hl : ∀ n ∈ l, n ≤ maxSigned)
    (hm : ∀ n ∈ m, n ≤ maxSigned) : limitOption l = limitOption m ↔ l = m := by
  constructor
  · intro h
    cases l with
    | none =>
      cases m with
      | none => rfl
      | some n => exact absurd h.symm (limitOption_passes n).limited
    | some n =>
      cases m with
      | none => exact absurd h (limitOption_passes n).limited
      | some k =>
        rw [(limitOption_passes n).eq_of_fits (hl n rfl),
          (limitOption_passes k).eq_of_fits (hm k rfl)] at h
        rw [Int.ofNat_inj.mp h]
  · rintro rfl
    rfl

/-- What a board accepts of a style, with a limit that fits into 64 bits with a sign. -/
structure Drawable (e : Endpoint) : Prop where
  shape : Settings.shapeIsPositive e.style.shape = true
  limit : ∀ n ∈ e.style.limit, n ≤ maxSigned

theorem role_inj {r q : Role} :
    ((r == .source) = (q == .source) ∧ (r == .target) = (q == .target)) ↔ r = q := by
  cases r <;> cases q <;> decide

theorem same_endpointOptions {e f : Endpoint} (he : Drawable e) (hf : Drawable f) :
    Same (endpointOptions e) (endpointOptions f) ↔
      e.id = f.id ∧ e.role = f.role ∧ e.style = f.style := by
  have hid : e.id.text = f.id.text ↔ e.id = f.id := ⟨Uuid.text_injective, congrArg _⟩
  have hanchor : e.style.anchor.name = f.style.anchor.name ↔ e.style.anchor = f.style.anchor :=
    ⟨Anchor.name_injective, congrArg _⟩
  have hshape := same_shapeOption he.shape hf.shape
  have hlimit := limitOption_inj he.limit hf.limit
  have hstyle : e.style = f.style ↔ e.style.color = f.style.color ∧ e.style.shape = f.style.shape ∧
      e.style.anchor = f.style.anchor ∧ e.style.limit = f.style.limit := by
    rcases e.style with ⟨⟩
    rcases f.style with ⟨⟩
    simp
  rw [endpointOptions, endpointOptions]
  refine Iff.trans (Json.same_record (by simp only [List.map]) (by simp)) ?_
  have hpaint : Same (.record [("fill", .ofString e.style.color)])
      (.record [("fill", .ofString f.style.color)]) ↔ e.style.color = f.style.color := by
    refine Iff.trans (Json.same_record (by simp only [List.map]) (by simp)) ?_
    simp only [List.forall₂_cons, Json.same_ofString, List.forall₂_nil_left_iff, and_true]
  simp only [List.forall₂_cons, Uuid.toJson, Anchor.toJson, Json.same_ofString, Json.same_bool,
    Json.same_ofInt, hid, hanchor, hshape, hlimit, hpaint, List.forall₂_nil_left_iff, and_true]
  -- the role is told by two flags
  rw [hstyle, ← role_inj]
  constructor
  · rintro ⟨id, anchor, shape, color, source, target, limit⟩
    exact ⟨id, ⟨source, target⟩, color, shape, anchor, limit⟩
  · rintro ⟨id, ⟨source, target⟩, color, shape, anchor, limit⟩
    exact ⟨id, anchor, shape, color, source, target, limit⟩

/-- Endpoints whose options are equal differ in their items at most, and a limit of any size leaves
the options as a limit. -/
theorem options_tell_endpoints_apart (e f : Endpoint) :
    (Drawable e → Drawable f → (Same (endpointOptions e) (endpointOptions f) ↔
      e.id = f.id ∧ e.role = f.role ∧ e.style = f.style)) ∧
    ∀ n, e.style.limit = some n → ∃ v,
      (endpointOptions e).get? "maxConnections" = some (.ofInt v) ∧ Passes n v ∧
      ∀ m w, f.style.limit = some m →
        (endpointOptions f).get? "maxConnections" = some (.ofInt w) → n ≤ m → v ≤ w := by
  refine ⟨same_endpointOptions, fun n hn => ⟨limitOption (some n), ?_, limitOption_passes n, ?_⟩⟩
  · rw [← hn]
    rfl
  · intro m w hm hw hle
    have hoption : (endpointOptions f).get? "maxConnections" =
        some (.ofInt (limitOption f.style.limit)) := rfl
    rw [hoption, hm] at hw
    obtain rfl : limitOption (some m) = w := by simpa [Json.ofInt] using hw
    exact limitOption_mono hle

def limited (n : ℕ) : Endpoint :=
  ⟨Uuid.ofCounter 0, ⟨"box"⟩, .source, { Style.source with limit := some n }⟩

theorem options_tell_endpoints_apart_of_limits :
    Drawable (limited 3) ∧ Drawable (limited maxSigned) ∧
      ¬ Same (endpointOptions (limited 3)) (endpointOptions (limited maxSigned)) ∧
      ∃ v, (endpointOptions (limited (2 ^ 64 - 1))).get? "maxConnections" = some (.ofInt v) ∧
        Passes (2 ^ 64 - 1) v := by
  have hdrawable : ∀ n ≤ maxSigned, Drawable (limited n) := by
    intro n hn
    have hdot : Settings.shapeIsPositive Style.source.shape = true := by decide +kernel
    refine ⟨hdot, fun m hm => ?_⟩
    obtain rfl := Option.some.inj hm
    exact hn
  have hthree := hdrawable 3 (by decide)
  have hmost := hdrawable maxSigned le_rfl
  refine ⟨hthree, hmost, ?_, ?_⟩
  · rw [(options_tell_endpoints_apart (limited 3) (limited maxSigned)).1 hthree hmost]
    rintro ⟨-, -, hstyle⟩
    exact absurd (congrArg Style.limit hstyle) (by decide)
  · obtain ⟨v, hv, hpasses, -⟩ :=
      (options_tell_endpoints_apart (limited (2 ^ 64 - 1)) (limited 0)).2 _ rfl
    exact ⟨v, hv, hpasses⟩

end Wiring

end DiagramEditor

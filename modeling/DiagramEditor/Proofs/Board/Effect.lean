import DiagramEditor.Proofs.Board.History
import DiagramEditor.Proofs.Document.Lookup
import Mathlib.Logic.Relation

/-! Every operation works on the document and on the surroundings through a few elementary effects,
and sends out only signals of its own kind. What each effect keeps, every operation keeps. -/
namespace DiagramEditor

open Wiring (Call)

namespace Document

/-- A call that tells a library no more than the document holds. -/
def Warrants (d : Document) : Call → Prop
  | .setContainer _ => True
  | .makeDraggable id _ => ∃ i ∈ d.items, i.id = id ∧ i.draggable = true
  | .moveItem id p => ∃ i ∈ d.items, i.id = id ∧ i.draggable = true ∧ i.position = p
  | .addEndpoint e => e ∈ d.endpoints
  | .connect _ s t => (s ∈ d.endpoints ∧ s.role = .source) ∧ t ∈ d.endpoints ∧ t.role = .target
  | .removeElement _ => False

theorem warrants_registration {d : Document} {box : Size} {c : Call}
    (h : c ∈ d.items.flatMap (Board.registration box)) : d.Warrants c := by
  obtain ⟨i, hi, hc⟩ := List.mem_flatMap.mp h
  rcases List.mem_append.mp hc with hc | hc
  · split at hc
    · next hd =>
      simp only [List.mem_cons, List.not_mem_nil, or_false] at hc
      rcases hc with rfl | rfl
      · exact ⟨i, hi, rfl, hd⟩
      · exact ⟨i, hi, rfl, hd, rfl⟩
    · simp at hc
  · obtain ⟨e, he, rfl⟩ := List.mem_map.mp hc
    exact mem_endpoints.mpr ⟨i, hi, he⟩

end Document

namespace Board

variable {σ : Type}

/-- What effects are bound to: the settings for new items, and the signals and the new endpoints
that are allowed while the document is as given. -/
structure Conduct where
  settings : Settings
  sends : Document → Signal → Prop
  attaches : Document → Endpoint → Prop

section Effect
variable (w : Surroundings σ) (r : Conduct)

inductive Effect : Document × σ → Document × σ → Prop
  | noted {d s} (n : Note) (hs : r.sends d (.note n)) : Effect (d, s) (d, w.note n s)
  | refused {d s s' c f} (hs : r.sends d (.call c (.error f))) (hc : w.call c s = (.error f, s')) :
      Effect (d, s) (d, s')
  | told {d s s' c} (hs : r.sends d (.call c (.ok ()))) (hd : d.Warrants c)
      (hc : w.call c s = (.ok (), s')) : Effect (d, s) (d, s')
  | resized {d s} (id : ItemId) (size : Rect) : Effect (d, s) (d.update id (measured size), s)
  | enabled {d s s' id box} (hs : r.sends d (.call (.makeDraggable id box) (.ok ())))
      (hi : ∃ i, d.find? id = some i) (hc : w.call (.makeDraggable id box) s = (.ok (), s')) :
      Effect (d, s) (d.update id Item.enable, s')
  | placed {d s s' id p} (hs : r.sends d (.call (.moveItem id p) (.ok ())))
      (hc : w.call (.moveItem id p) s = (.ok (), s')) : Effect (d, s) (d.setPosition id p, s')
  | slipped {d s s' id p f} (hs : r.sends d (.call (.moveItem id p) (.error f)))
      (hc : w.call (.moveItem id p) s = (.error f, s')) : Effect (d, s) (d.setPosition id p, s')
  | inserted {d d' s} (index : Nat) (kind : String) (p : Point)
      (h : d.mint.2.insert index (newItem r.settings d.mint.1 kind p) = .ok d') :
      Effect (d, s) (d', s)
  | removed {d s s' id} (hs : r.sends d (.call (.removeElement id) (.ok ())))
      (hi : ∃ i, d.find? id = some i) (hc : w.call (.removeElement id) s = (.ok (), s')) :
      Effect (d, s) (d.remove id, s')
  | attached {d s s' e} (hs : r.sends d (.call (.addEndpoint e) (.ok ())))
      (hi : ∃ i, d.find? e.item = some i) (ha : r.attaches d e)
      (hc : w.call (.addEndpoint e) s = (.ok (), s')) :
      Effect (d, s) (d.update e.item (Item.attach e), s')

abbrev Trail : Document × σ → Document × σ → Prop :=
  Relation.ReflTransGen (Effect w r)

end Effect

section Trail
variable {w : Surroundings σ} {r : Conduct}

theorem Trail.keeps {P : Document × σ → Prop} {x y : Document × σ}
    (h : Trail w r x y) (hP : ∀ {x y}, Effect w r x y → P x → P y)
    (hx : P x) : P y := by
  induction h with
  | refl => exact hx
  | tail _ he ih => exact hP he ih

theorem Trail.keeps_outside {P : σ → Prop} {x y : Document × σ} (h : Trail w r x y)
    (hcall : ∀ c s, P s → P (w.call c s).2) (hnote : ∀ n s, P s → P (w.note n s)) (hx : P x.2) :
    P y.2 := by
  have hc : ∀ {c answer s s'}, w.call c s = (answer, s') → P s → P s' := by
    intro c answer s s' he hs
    have hkept := hcall c s hs
    rwa [he] at hkept
  refine h.keeps (P := fun x => P x.2) (fun he hx => ?_) hx
  cases he with
  | noted n _ => exact hnote n _ hx
  | refused _ he => exact hc he hx
  | told _ _ he => exact hc he hx
  | resized _ _ => exact hx
  | enabled _ _ he => exact hc he hx
  | placed _ he => exact hc he hx
  | slipped _ he => exact hc he hx
  | inserted _ _ _ _ => exact hx
  | removed _ _ he => exact hc he hx
  | attached _ _ _ he => exact hc he hx

theorem Trail.notes (d : Document) {ns : List Note} (hs : ∀ n ∈ ns, r.sends d (.note n)) (s : σ) :
    Trail w r (d, s) (d, ns.foldl (fun s n => w.note n s) s) := by
  induction ns generalizing s with
  | nil => exact .refl
  | cons n rest ih =>
    have hn : Effect w r (d, s) (d, w.note n s) := .noted n (hs n List.mem_cons_self)
    exact .head hn (ih (fun m hm => hs m (List.mem_cons_of_mem _ hm)) _)

theorem Trail.calls (d : Document) {calls : List Call}
    (hd : ∀ c ∈ calls, d.Warrants c ∧ ∀ answer, r.sends d (.call c answer)) (s : σ) :
    Trail w r (d, s) (d, (Wiring.Library.callAll w.call calls s).2) := by
  induction calls generalizing s with
  | nil => exact .refl
  | cons c rest ih =>
    obtain ⟨hc, hs⟩ := hd c List.mem_cons_self
    rw [Wiring.Library.callAll]
    split
    · next f s' h => exact .single (.refused (hs _) h)
    · next s' h =>
      exact .head (.told (hs _) hc h) (ih (fun c hc => hd c (List.mem_cons_of_mem _ hc)) s')

end Trail

end Board

end DiagramEditor

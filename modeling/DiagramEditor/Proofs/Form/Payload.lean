import DiagramEditor.Form.Payload
import DiagramEditor.Proofs.Form.Settings
import DiagramEditor.Proofs.Json.Texts
import DiagramEditor.Proofs.Uuid

/-! Payloads are read back from their JSON form, also when its objects are turned around and have
members that nobody asks for. Of those only the ones in shapes and drag sources have to end within
the levels that a reader goes down: it looks through all of these before it knows their variants. -/
namespace DiagramEditor

open Json (Widens Whole)

theorem Uuid.ofJson?_toJson (u : Uuid) : Uuid.ofJson? u.toJson = some u := by
  rw [Uuid.ofJson?, Uuid.toJson, Json.string?_ofString, Option.bind_some, Uuid.parse?_text]

theorem Role.ofJson?_toJson (r : Role) : Role.ofJson? r.toJson = some r := by
  cases r <;> rfl

theorem ItemId.ofJson?_toJson (id : ItemId) : ItemId.ofJson? id.toJson = some id := rfl

section Sendable
variable {P : Float → Prop}

/-- Such doubles, and a limit of 64 bits. -/
structure Style.Sendable (P : Float → Prop) (s : Style) : Prop where
  doubles : ∀ x ∈ s.shape.doubles, P x
  limit : ∀ n ∈ s.limit, n < Json.wordBound

structure Item.Sendable (P : Float → Prop) (i : Item) : Prop where
  x : P i.x
  y : P i.y
  width : P i.width
  height : P i.height
  styles : ∀ e ∈ i.endpoints, e.style.Sendable P

def Payload.Sendable (P : Float → Prop) : Payload → Prop
  | point p => P p.x ∧ P p.y
  | size s => P s.width ∧ P s.height
  | rect r => P r.x ∧ P r.y ∧ P r.width ∧ P r.height
  | template _ | source _ => True
  | shape s => ∀ x ∈ s.doubles, P x
  | style s => s.Sendable P
  | endpoint e => e.style.Sendable P
  | item i => i.Sendable P

theorem Shape.whole_toJson {s : Shape} (h : ∀ x ∈ s.doubles, P x) : Whole P s.toJson := by
  cases s with
  | dot r =>
    apply Json.whole_record
    simp only [List.forall_mem_cons]
    exact ⟨.string _, Json.whole_ofFloat (h r List.mem_cons_self), nofun⟩
  | rectangle w l =>
    apply Json.whole_record
    simp only [List.forall_mem_cons]
    exact ⟨.string _, Json.whole_ofFloat (h w List.mem_cons_self),
      Json.whole_ofFloat (h l (List.mem_cons_of_mem _ List.mem_cons_self)), nofun⟩

theorem DragSource.whole_toJson (s : DragSource) : Whole P s.toJson := by
  cases s with
  | template | item | foreign =>
    apply Json.whole_record
    simp only [List.forall_mem_cons]
    repeat' constructor
    all_goals exact nofun

theorem Style.Sendable.whole_toJson {s : Style} (hs : s.Sendable P) : Whole P s.toJson := by
  apply Json.whole_record
  simp only [List.forall_mem_cons]
  refine ⟨.string _, Shape.whole_toJson hs.doubles, .string _, ?_, nofun⟩
  cases hlimit : s.limit with
  | none => exact .null
  | some n =>
    have hn := hs.limit n hlimit
    exact .int (by omega) (Int.ofNat_lt.mpr hn)

theorem Endpoint.whole_toJson {e : Endpoint} (he : e.style.Sendable P) : Whole P e.toJson := by
  apply Json.whole_record
  simp only [List.forall_mem_cons]
  exact ⟨.string _, .string _, .string _, he.whole_toJson, nofun⟩

theorem Item.Sendable.whole_toJson {i : Item} (hi : i.Sendable P) : Whole P i.toJson := by
  apply Json.whole_record
  simp only [List.forall_mem_cons]
  exact ⟨.string _, .string _, Json.whole_ofFloat hi.x, Json.whole_ofFloat hi.y,
    Json.whole_ofFloat hi.width, Json.whole_ofFloat hi.height,
    Json.whole_ofList fun _ _ => .string _, .bool _,
    Json.whole_ofList fun e he => Endpoint.whole_toJson (hi.styles e he), nofun⟩

theorem Payload.Sendable.whole_toJson {p : Payload} (h : p.Sendable P) : Whole P p.toJson := by
  cases p with
  | point p =>
    apply Json.whole_record
    simp only [List.forall_mem_cons]
    exact ⟨Json.whole_ofFloat h.1, Json.whole_ofFloat h.2, nofun⟩
  | size s =>
    apply Json.whole_record
    simp only [List.forall_mem_cons]
    exact ⟨Json.whole_ofFloat h.1, Json.whole_ofFloat h.2, nofun⟩
  | rect r =>
    apply Json.whole_record
    simp only [List.forall_mem_cons]
    exact ⟨Json.whole_ofFloat h.1, Json.whole_ofFloat h.2.1, Json.whole_ofFloat h.2.2.1,
      Json.whole_ofFloat h.2.2.2, nofun⟩
  | template t =>
    apply Json.whole_record
    simp only [List.forall_mem_cons]
    exact ⟨.string _, .string _, nofun⟩
  | shape s => exact Shape.whole_toJson h
  | style s => exact Style.Sendable.whole_toJson h
  | endpoint e => exact Endpoint.whole_toJson h
  | item i => exact Item.Sendable.whole_toJson h
  | source s => exact DragSource.whole_toJson s

end Sendable

def variantFits (room : Nat) (j : Json) : Bool := j.depth ≤ room

def styleFits (room : Nat) (j : Json) : Bool := (j.get? "shape").all (variantFits (room - 1))

def endpointFits (room : Nat) (j : Json) : Bool := (j.get? "style").all (styleFits (room - 1))

def Json.elements : Json → List Json
  | .array items => items
  | _ => []

def itemFits (room : Nat) (j : Json) : Bool :=
  (j.get? "endpoints").all fun es => es.elements.all (endpointFits (room - 2))

/-- Every shape and drag source in the value ends within the levels that are left for it. -/
def Payload.Kind.fits (room : Nat) (j : Json) : Kind → Bool
  | .shape | .source => variantFits room j
  | .style => styleFits room j
  | .endpoint => endpointFits room j
  | .item => itemFits room j
  | .point | .size | .rect | .template => true

theorem styleFits_of_depth {room : Nat} {j : Json} (h : j.depth ≤ room) :
    styleFits room j = true := by
  rw [styleFits, Option.all_eq_true]
  intro shape hshape
  have hlt := Json.depth_lt_of_get? hshape
  rw [variantFits, decide_eq_true_eq]
  omega

theorem endpointFits_of_depth {room : Nat} {j : Json} (h : j.depth ≤ room) :
    endpointFits room j = true := by
  rw [endpointFits, Option.all_eq_true]
  intro style hstyle
  have hlt := Json.depth_lt_of_get? hstyle
  apply styleFits_of_depth
  omega

theorem itemFits_of_depth {room : Nat} {j : Json} (h : j.depth ≤ room) :
    itemFits room j = true := by
  rw [itemFits, Option.all_eq_true]
  intro endpoints hendpoints
  have hlt := Json.depth_lt_of_get? hendpoints
  rw [List.all_eq_true]
  intro e he
  cases endpoints with
  | array es =>
    have hmem : e.depth < (Json.array es).depth := Json.depth_lt_of_mem he
    apply endpointFits_of_depth
    omega
  | null | bool | number | string | object => exact absurd he List.not_mem_nil

theorem Payload.Kind.fits_of_depth {k : Kind} {room : Nat} {j : Json} (h : j.depth ≤ room) :
    k.fits room j = true := by
  cases k with
  | shape | source => exact decide_eq_true h
  | style => exact styleFits_of_depth h
  | endpoint => exact endpointFits_of_depth h
  | item => exact itemFits_of_depth h
  | point | size | rect | template => rfl

section Reading
variable {P : Float → Prop} {room : Nat} {k : Json}

theorem usable_eq_variantFits {j : Json} (h : Widens P j k) (hj : Whole P j) :
    k.usable room = variantFits room k := by
  rw [Bool.eq_iff_iff, Json.usable_iff (h.whole hj), variantFits, decide_eq_true_eq]

theorem Template.ofJson?_of_widens {t : Template} (h : Widens P t.toJson k) :
    Template.ofJson? k = some t := by
  rw [Template.toJson] at h
  have hfields := Json.fields?_of_plain (by simp) (by simp [Json.depth_ofString]) h
  simp only [List.map] at hfields
  simp only [Template.ofJson?, hfields, Json.string?_ofString, Option.bind_eq_bind,
    Option.bind_some, Option.pure_def]

theorem DragSource.ofJson?_of_widens {s : DragSource} (h : Widens P s.toJson k) :
    DragSource.ofJson? room k = if variantFits room k then some s else none := by
  rw [← usable_eq_variantFits h (DragSource.whole_toJson s)]
  cases s with
  | template kind =>
    rw [DragSource.toJson] at h
    obtain ⟨body, hfields, htagged⟩ :=
      Json.tagged?_of_plain (by simp) (by simp [Json.depth_ofString]) h
    simp only [List.map] at hfields
    rw [DragSource.ofJson?, htagged]
    split
    · simp [hfields, Json.string?_ofString]
    · rfl
  | item id =>
    rw [DragSource.toJson] at h
    obtain ⟨body, hfields, htagged⟩ :=
      Json.tagged?_of_plain (by simp) (by simp [ItemId.toJson, Json.depth_ofString]) h
    simp only [List.map] at hfields
    rw [DragSource.ofJson?, htagged]
    split
    · simp [hfields, ItemId.ofJson?, ItemId.toJson, Json.string?_ofString]
    · rfl
  | foreign =>
    rw [DragSource.toJson] at h
    obtain ⟨body, hbody, htagged⟩ := Json.tagged?_of_widens (by simp) h
    obtain ⟨ns, members, rfl, -⟩ := Json.widens_record hbody
    rw [DragSource.ofJson?, htagged]
    split <;> rfl

variable (hP : ∀ x, P x → x.isFinite = true)
include hP

theorem float?_ofFloat_of {x : Float} (h : P x) : (Json.ofFloat x).float? = some x :=
  Settings.float?_ofFloat (hP x h)

theorem Point.ofJson?_of_widens {p : Point} (hx : P p.x) (hy : P p.y)
    (h : Widens P p.toJson k) : Point.ofJson? k = some p := by
  rw [Point.toJson] at h
  have hfields := Json.fields?_of_plain (by simp) (by simp [Json.depth_ofFloat]) h
  simp only [List.map] at hfields
  simp only [Point.ofJson?, hfields, float?_ofFloat_of hP hx, float?_ofFloat_of hP hy,
    Option.bind_eq_bind, Option.bind_some, Option.pure_def]

theorem Size.ofJson?_of_widens {s : Size} (hw : P s.width)
    (hh : P s.height) (h : Widens P s.toJson k) : Size.ofJson? k = some s := by
  rw [Size.toJson] at h
  have hfields := Json.fields?_of_plain (by simp) (by simp [Json.depth_ofFloat]) h
  simp only [List.map] at hfields
  simp only [Size.ofJson?, hfields, float?_ofFloat_of hP hw, float?_ofFloat_of hP hh,
    Option.bind_eq_bind, Option.bind_some, Option.pure_def]

theorem Rect.ofJson?_of_widens {r : Rect} (hx : P r.x) (hy : P r.y)
    (hw : P r.width) (hh : P r.height) (h : Widens P r.toJson k) :
    Rect.ofJson? k = some r := by
  rw [Rect.toJson] at h
  have hfields := Json.fields?_of_plain (by simp) (by simp [Json.depth_ofFloat]) h
  simp only [List.map] at hfields
  simp only [Rect.ofJson?, hfields, float?_ofFloat_of hP hx, float?_ofFloat_of hP hy,
    float?_ofFloat_of hP hw, float?_ofFloat_of hP hh, Option.bind_eq_bind, Option.bind_some,
    Option.pure_def]

theorem Shape.ofJson?_of_widens {s : Shape} (hs : ∀ x ∈ s.doubles, P x)
    (h : Widens P s.toJson k) :
    Shape.ofJson? room k = if variantFits room k then some s else none := by
  rw [← usable_eq_variantFits h (Shape.whole_toJson hs)]
  cases s with
  | dot r =>
    have hr := float?_ofFloat_of hP (hs r List.mem_cons_self)
    rw [Shape.toJson] at h
    obtain ⟨body, hfields, htagged⟩ :=
      Json.tagged?_of_plain (by simp) (by simp [Json.depth_ofFloat]) h
    simp only [List.map] at hfields
    rw [Shape.ofJson?, htagged]
    split
    · simp [hfields, hr]
    · rfl
  | rectangle w l =>
    have hw := float?_ofFloat_of hP (hs w List.mem_cons_self)
    have hl := float?_ofFloat_of hP (hs l (List.mem_cons_of_mem _ List.mem_cons_self))
    rw [Shape.toJson] at h
    obtain ⟨body, hfields, htagged⟩ :=
      Json.tagged?_of_plain (by simp) (by simp [Json.depth_ofFloat]) h
    simp only [List.map] at hfields
    rw [Shape.ofJson?, htagged]
    split
    · simp [hfields, hw, hl]
    · rfl

theorem Style.ofJson?_of_widens {s : Style} (hs : s.Sendable P) (h : Widens P s.toJson k) :
    Style.ofJson? room k = if styleFits room k then some s else none := by
  rw [Style.toJson] at h
  obtain ⟨ks, hfields, hget, hvalues⟩ := Json.fields?_of_widens (by simp) h
  simp only [List.map, List.forall₂_cons_left_iff, List.forall₂_nil_left_iff] at hvalues
  obtain ⟨color, _, hcolor, ⟨shape, _, hshape, ⟨anchor, _, hanchor, ⟨limit, _, hlimit,
    rfl, rfl⟩, rfl⟩, rfl⟩, rfl⟩ := hvalues
  -- the shape is the only field with levels, hence the only one that can be widened
  obtain rfl := hcolor.eq_of_depth rfl
  obtain rfl := hanchor.eq_of_depth rfl
  obtain rfl := hlimit.eq_of_depth (Json.depth_ofOption_ofNat _)
  simp only [List.map, List.cons.injEq] at hfields hget
  obtain ⟨-, hmember, -⟩ := hget
  rw [styleFits, hmember, Option.all_some, Style.ofJson?]
  simp only [hfields, Json.string?_ofString, Anchor.ofJson?_toJson, Option.getD_some,
    Json.nullable?_ofOption hs.limit, Shape.ofJson?_of_widens hP hs.doubles hshape,
    Option.bind_eq_bind, Option.bind_some, Option.pure_def]
  split <;> rfl

theorem Endpoint.ofJson?_of_widens {e : Endpoint} (he : e.style.Sendable P)
    (h : Widens P e.toJson k) :
    Endpoint.ofJson? room k = if endpointFits room k then some e else none := by
  rw [Endpoint.toJson] at h
  obtain ⟨ks, hfields, hget, hvalues⟩ := Json.fields?_of_widens (by simp) h
  simp only [List.map, List.forall₂_cons_left_iff, List.forall₂_nil_left_iff] at hvalues
  obtain ⟨id, _, hid, ⟨item, _, hitem, ⟨role, _, hrole, ⟨style, _, hstyle,
    rfl, rfl⟩, rfl⟩, rfl⟩, rfl⟩ := hvalues
  obtain rfl := hid.eq_of_depth rfl
  obtain rfl := hitem.eq_of_depth rfl
  obtain rfl := hrole.eq_of_depth rfl
  simp only [List.map, List.cons.injEq] at hfields hget
  obtain ⟨-, -, -, hmember, -⟩ := hget
  rw [endpointFits, hmember, Option.all_some, Endpoint.ofJson?]
  simp only [hfields, Uuid.ofJson?_toJson, ItemId.ofJson?_toJson, Role.ofJson?_toJson,
    Style.ofJson?_of_widens hP he hstyle, Option.bind_eq_bind, Option.bind_some, Option.pure_def]
  split <;> rfl

theorem mapM_of_widens {es : List Endpoint} {js : List Json} (hes : ∀ e ∈ es, e.style.Sendable P)
    (h : List.Forall₂ (Widens P) (es.map Endpoint.toJson) js) :
    js.mapM (Endpoint.ofJson? room) = if js.all (endpointFits room) then some es else none := by
  induction es generalizing js with
  | nil =>
    obtain rfl := List.forall₂_nil_left_iff.mp h
    rfl
  | cons e es ih =>
    obtain ⟨j, rest, hj, hrest, rfl⟩ := List.forall₂_cons_left_iff.mp h
    obtain ⟨he, hes⟩ := List.forall_mem_cons.mp hes
    rw [List.mapM_cons, Endpoint.ofJson?_of_widens hP he hj, ih hes hrest, List.all_cons]
    cases endpointFits room j <;> cases rest.all (endpointFits room) <;> rfl

theorem Item.ofJson?_of_widens {i : Item} (hi : i.Sendable P) (h : Widens P i.toJson k) :
    Item.ofJson? room k = if itemFits room k then some i else none := by
  rw [Item.toJson] at h
  obtain ⟨ks, hfields, hget, hvalues⟩ := Json.fields?_of_widens (by simp) h
  simp only [List.map, List.forall₂_cons_left_iff, List.forall₂_nil_left_iff] at hvalues
  obtain ⟨id, _, hid, ⟨kind, _, hkind, ⟨x, _, hx, ⟨y, _, hy, ⟨width, _, hwidth,
    ⟨height, _, hheight, ⟨classes, _, hclasses, ⟨draggable, _, hdraggable,
    ⟨endpoints, _, hendpoints, rfl, rfl⟩, rfl⟩, rfl⟩, rfl⟩, rfl⟩, rfl⟩, rfl⟩, rfl⟩, rfl⟩ := hvalues
  obtain rfl := hid.eq_of_depth rfl
  obtain rfl := hkind.eq_of_depth rfl
  obtain rfl := hx.eq_of_depth (Json.depth_ofFloat _)
  obtain rfl := hy.eq_of_depth (Json.depth_ofFloat _)
  obtain rfl := hwidth.eq_of_depth (Json.depth_ofFloat _)
  obtain rfl := hheight.eq_of_depth (Json.depth_ofFloat _)
  obtain rfl := hdraggable.eq_of_depth rfl
  -- an array keeps its items, and strings stay as they are
  obtain rfl : classes = .ofList .ofString i.classes := by
    obtain ⟨ks, rfl, hks⟩ := Json.widens_array hclasses
    rw [Json.eq_of_forall₂_widens hks (by simp [Json.depth_ofString]), Json.ofList]
  obtain ⟨es, rfl, hes⟩ := Json.widens_array hendpoints
  simp only [List.map, List.cons.injEq] at hfields hget
  obtain ⟨-, -, -, -, -, -, -, -, hmember, -⟩ := hget
  have hendpoint : (Json.array es).list? (Endpoint.ofJson? (room - 2)) =
      if es.all (endpointFits (room - 2)) then some i.endpoints else none :=
    mapM_of_widens hP hi.styles hes
  rw [itemFits, hmember, Option.all_some, Json.elements, Item.ofJson?]
  simp only [hfields, ItemId.ofJson?_toJson, Json.string?_ofString, Json.list?_ofString,
    float?_ofFloat_of hP hi.x, float?_ofFloat_of hP hi.y, float?_ofFloat_of hP hi.width,
    float?_ofFloat_of hP hi.height, Json.bool?, hendpoint, Option.bind_eq_bind,
    Option.bind_some, Option.pure_def]
  split <;> rfl

theorem Payload.ofJson?_of_widens {p : Payload} (hp : p.Sendable P) (h : Widens P p.toJson k) :
    p.kind.ofJson? room k = if p.kind.fits room k then some p else none := by
  cases p with
  | point p => exact congrArg (Option.map _) (Point.ofJson?_of_widens hP hp.1 hp.2 h)
  | size s => exact congrArg (Option.map _) (Size.ofJson?_of_widens hP hp.1 hp.2 h)
  | rect r =>
    obtain ⟨hx, hy, hw, hh⟩ := hp
    exact congrArg (Option.map _) (Rect.ofJson?_of_widens hP hx hy hw hh h)
  | template t => exact congrArg (Option.map _) (Template.ofJson?_of_widens h)
  | shape s =>
    change (Shape.ofJson? room k).map shape = if variantFits room k then _ else _
    rw [Shape.ofJson?_of_widens hP hp h]
    split <;> rfl
  | style s =>
    change (Style.ofJson? room k).map style = if styleFits room k then _ else _
    rw [Style.ofJson?_of_widens hP hp h]
    split <;> rfl
  | endpoint e =>
    change (Endpoint.ofJson? room k).map endpoint = if endpointFits room k then _ else _
    rw [Endpoint.ofJson?_of_widens hP hp h]
    split <;> rfl
  | item i =>
    change (Item.ofJson? room k).map item = if itemFits room k then _ else _
    rw [Item.ofJson?_of_widens hP hp h]
    split <;> rfl
  | source s =>
    change (DragSource.ofJson? room k).map source = if variantFits room k then _ else _
    rw [DragSource.ofJson?_of_widens h]
    split <;> rfl

end Reading

theorem Payload.Kind.read?_eq {k : Kind} {raw : String} {j : Json} (h : Json.read? raw = some j) :
    k.read? raw = k.ofJson? Json.maxDepth j := by
  rw [Kind.read?, h, Option.bind_some]

theorem Shape.depth_toJson (s : Shape) : s.toJson.depth ≤ 1 := by
  cases s with
  | dot r =>
    apply Json.depth_record_le
    simp [Json.depth_ofString, Json.depth_ofFloat]
  | rectangle w l =>
    apply Json.depth_record_le
    simp [Json.depth_ofString, Json.depth_ofFloat]

theorem Style.depth_toJson (s : Style) : s.toJson.depth ≤ 2 := by
  apply Json.depth_record_le
  simp [Json.depth_ofString, Json.depth_ofOption_ofNat, Anchor.toJson, Shape.depth_toJson]

theorem Endpoint.depth_toJson (e : Endpoint) : e.toJson.depth ≤ 3 := by
  apply Json.depth_record_le
  simp [Json.depth_ofString, Uuid.toJson, ItemId.toJson, Role.toJson, Style.depth_toJson]

theorem Item.depth_toJson (i : Item) : i.toJson.depth ≤ 5 := by
  have hclasses : (Json.ofList Json.ofString i.classes).depth ≤ 1 :=
    Json.depth_ofList_le fun _ _ => Nat.le_refl 0
  have hendpoints : (Json.ofList Endpoint.toJson i.endpoints).depth ≤ 4 :=
    Json.depth_ofList_le fun e _ => e.depth_toJson
  apply Json.depth_record_le
  simp only [List.forall_mem_cons, ItemId.toJson, Json.depth_ofString, Json.depth_ofFloat]
  exact ⟨by omega, by omega, by omega, by omega, by omega, by omega, by omega, Nat.zero_le 4,
    hendpoints, nofun⟩

theorem DragSource.depth_toJson (s : DragSource) : s.toJson.depth ≤ 1 := by
  cases s with
  | template | item | foreign =>
    apply Json.depth_record_le
    simp [Json.depth_ofString, ItemId.toJson]

theorem Payload.fits_toJson (p : Payload) : p.kind.fits Json.maxDepth p.toJson = true := by
  cases p with
  | point | size | rect | template => rfl
  | shape s => exact Kind.fits_of_depth (s.depth_toJson.trans (by decide))
  | style s => exact Kind.fits_of_depth (s.depth_toJson.trans (by decide))
  | endpoint e => exact Kind.fits_of_depth (e.depth_toJson.trans (by decide))
  | item i => exact Kind.fits_of_depth (i.depth_toJson.trans (by decide))
  | source s => exact Kind.fits_of_depth (s.depth_toJson.trans (by decide))

/-- A payload is read back from its text, and from the text of its widened form exactly if all the
variants in it fit into the levels that a reader goes down. -/
theorem payloads_survive_their_form (p : Payload) :
    (p.Sendable (fun x => x.isFinite = true) → ∀ raw j, Json.read? raw = some j →
      Widens (fun x => x.isFinite = true) p.toJson j →
      p.kind.read? raw = if p.kind.fits Json.maxDepth j then some p else none) ∧
    (p.Sendable Json.Kept → p.kind.read? p.toJson.text = some p ∧
      ∀ j, Widens Json.Kept p.toJson j →
        p.kind.read? j.text = if p.kind.fits Json.maxDepth j then some p else none) := by
  refine ⟨fun hp raw j hraw hj => ?_, fun hp => ?_⟩
  · rw [Payload.Kind.read?_eq hraw]
    exact Payload.ofJson?_of_widens (fun _ hx => hx) hp hj
  have hwidened : ∀ j, Widens Json.Kept p.toJson j →
      p.kind.read? j.text = if p.kind.fits Json.maxDepth j then some p else none := by
    intro j hj
    rw [Payload.Kind.read?_eq (Json.readsBack_of_whole (hj.whole hp.whole_toJson))]
    exact Payload.ofJson?_of_widens (fun _ hx => hx.1) hp hj
  refine ⟨?_, hwidened⟩
  rw [hwidened _ (Json.widens_self hp.whole_toJson), p.fits_toJson, if_pos rfl]

namespace Payload

def sampleStyle : Style := ⟨"a \"red\"", .dot 0.5, .top, some 2⟩

def sampleForm : Json :=
  .record
    [("color", .ofString "a \"red\""),
      ("shape", .record
        [("note", .array [.null, .ofInt (-3)]), ("radius", .ofFloat 0.5),
          ("type", .ofString "dot")]),
      ("anchor", .ofString "Top"), ("max_connections", .ofNat 2)]

theorem payloads_survive_their_form_turned :
    (style sampleStyle).Sendable Json.Kept ∧
      Widens Json.Kept (style sampleStyle).toJson sampleForm ∧
      Kind.style.read? (style sampleStyle).toJson.text = some (style sampleStyle) ∧
      Kind.style.read? sampleForm.text = some (style sampleStyle) := by
  have hhalf : Json.Kept 0.5 := ⟨rfl, rfl⟩
  have hsend : (style sampleStyle).Sendable Json.Kept := by
    refine ⟨fun x hx => ?_, fun n hn => ?_⟩
    · obtain rfl := List.mem_singleton.mp hx
      exact hhalf
    · obtain rfl := Option.some.inj hn
      decide
  have hshape : Widens Json.Kept sampleStyle.shape.toJson (.record
      [("note", .array [.null, .ofInt (-3)]), ("radius", .ofFloat 0.5),
        ("type", .ofString "dot")]) := by
    have hperm := List.reverse_perm [("type", Json.ofString "dot"), ("radius", .ofFloat 0.5),
      ("note", .array [.null, .ofInt (-3)])]
    refine Json.widens_of_perm [("note", .array [.null, .ofInt (-3)])]
      (List.forall₂_same.mpr ?_) hperm ?_
    · simp only [List.map, List.forall_mem_cons]
      exact ⟨.string _, Json.widens_self (Json.whole_ofFloat hhalf), nofun⟩
    · simp only [List.forall_mem_singleton]
      refine ⟨by decide, .array ?_⟩
      simp only [List.forall_mem_cons]
      exact ⟨.null, .int (by decide) (by decide), nofun⟩
  have hwidens : Widens Json.Kept (style sampleStyle).toJson sampleForm :=
    Json.widens_of_perm [] (.cons (.string _) (.cons hshape (.cons (.string _)
      (.cons (.number _) .nil)))) (List.Perm.refl _) fun _ hm => absurd hm List.not_mem_nil
  obtain ⟨hback, hwidened⟩ := (payloads_survive_their_form (style sampleStyle)).2 hsend
  have hread := hwidened sampleForm hwidens
  rw [if_pos (by decide +kernel)] at hread
  exact ⟨hsend, hwidens, hback, hread⟩

def nested : Nat → Json
  | 0 => .array []
  | n + 1 => .array [nested n]

theorem whole_nested (P : Float → Prop) (n : Nat) : Whole P (nested n) := by
  induction n with
  | zero => exact .array nofun
  | succ n ih => exact .array (List.forall_mem_singleton.mpr ih)

theorem depth_nested (n : Nat) : (nested n).depth = n + 1 := by
  induction n with
  | zero => rfl
  | succ n ih => rw [nested, Json.depth, Json.depthItems, Json.depthItems, ih, Nat.max_zero]

def deepForm : Json := .record [("type", .ofString "foreign"), ("extra", nested 199)]

theorem deep_members_refused :
    (source .foreign).Sendable Json.Kept ∧
      Widens Json.Kept (source .foreign).toJson deepForm ∧
      Json.read? deepForm.text = some deepForm ∧
      Kind.source.read? deepForm.text = none := by
  have hwidens : Widens Json.Kept DragSource.foreign.toJson deepForm := by
    refine Json.widens_of_perm [("extra", nested 199)] (.cons (.string _) .nil)
      (List.Perm.refl _) ?_
    simp only [List.forall_mem_singleton]
    exact ⟨by decide, whole_nested _ _⟩
  have hread := Json.readsBack_of_whole (hwidens.whole (DragSource.whole_toJson .foreign))
  have hextra : deepForm.get? "extra" = some (nested 199) := rfl
  have hdepth := Json.depth_lt_of_get? hextra
  have hsmall : ¬ variantFits Json.maxDepth deepForm = true := by
    rw [variantFits, decide_eq_true_eq, Json.maxDepth]
    rw [depth_nested] at hdepth
    omega
  have hform : DragSource.ofJson? Json.maxDepth deepForm = none :=
    (DragSource.ofJson?_of_widens hwidens).trans (if_neg hsmall)
  refine ⟨trivial, hwidens, hread, ?_⟩
  rw [Kind.read?_eq hread, Kind.ofJson?, hform]
  rfl

end Payload

end DiagramEditor

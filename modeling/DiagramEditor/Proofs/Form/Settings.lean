import DiagramEditor.Form.Settings
import DiagramEditor.Proofs.Json.Records
import DiagramEditor.Proofs.Settings

/-! Settings are read back from their JSON text, with defaults for what is missing. -/
namespace DiagramEditor

open Json (ReadsBack)

theorem Shape.ofJson?_toJson {s : Shape} (h : ∀ x ∈ s.doubles, x.isFinite = true) {room : Nat}
    (hroom : 0 < room) : Shape.ofJson? room s.toJson = some s := by
  obtain ⟨room, rfl⟩ : ∃ n, room = n + 1 := ⟨room - 1, by omega⟩
  cases s with
  | dot r =>
    have hr : Json.ofFloat r = .number (.real r) := if_pos (h r List.mem_cons_self)
    simp only [toJson, hr]
    rfl
  | rectangle w k =>
    have hw : Json.ofFloat w = .number (.real w) := if_pos (h w List.mem_cons_self)
    have hk : Json.ofFloat k = .number (.real k) :=
      if_pos (h k (List.mem_cons_of_mem _ List.mem_cons_self))
    simp only [toJson, hw, hk]
    rfl

theorem Anchor.ofJson?_toJson (a : Anchor) : Anchor.ofJson? a.toJson = some a := by
  cases a <;> rfl

theorem Style.ofJson?_toJson {s : Style} (h : ∀ x ∈ s.shape.doubles, x.isFinite = true)
    (hlimit : ∀ n ∈ s.limit, n < Json.wordBound) {room : Nat} (hroom : 1 < room) :
    Style.ofJson? room s.toJson = some s := by
  obtain ⟨color, shape, anchor, limit⟩ := s
  have hshape : Shape.ofJson? (room - 1) shape.toJson = some shape :=
    Shape.ofJson?_toJson h (by omega)
  have hanchor := Anchor.ofJson?_toJson anchor
  have hlimits := Json.nullable?_ofOption hlimit
  have hfields : (Style.toJson ⟨color, shape, anchor, limit⟩).fields?
      ["color", "shape", "anchor", "max_connections"] = some [some (.ofString color),
        some shape.toJson, some anchor.toJson, some (.ofOption .ofNat limit)] := rfl
  simp only [Style.ofJson?, hfields, Json.string?_ofString, hshape, hanchor, Option.getD_some,
    hlimits, Option.bind_eq_bind, Option.bind_some, Option.pure_def]

namespace Settings

def fieldNames : List String :=
  ["item_class", "item_id_prefix", "item_width", "item_height", "palette_kind_attr",
    "source_endpoint", "target_endpoint", "log_level"]

/-- These settings under the given names, and defaults under the others. -/
def given (c : Settings) (names : List String) : Settings :=
  let defaults : Settings := {}
  { itemClass := if "item_class" ∈ names then c.itemClass else defaults.itemClass
    idPrefix := if "item_id_prefix" ∈ names then c.idPrefix else defaults.idPrefix
    itemWidth := if "item_width" ∈ names then c.itemWidth else defaults.itemWidth
    itemHeight := if "item_height" ∈ names then c.itemHeight else defaults.itemHeight
    kindAttribute :=
      if "palette_kind_attr" ∈ names then c.kindAttribute else defaults.kindAttribute
    sourceStyle := if "source_endpoint" ∈ names then c.sourceStyle else defaults.sourceStyle
    targetStyle := if "target_endpoint" ∈ names then c.targetStyle else defaults.targetStyle
    logLevel := if "log_level" ∈ names then c.logLevel else defaults.logLevel }

theorem given_of_all {c : Settings} {names : List String} (h : ∀ n ∈ fieldNames, n ∈ names) :
    c.given names = c := by
  have hmem : ∀ n ∈ fieldNames, (n ∈ names) = True := fun n hn => eq_true (h n hn)
  simp only [fieldNames, List.mem_cons, List.not_mem_nil, or_false, forall_eq_or_imp,
    forall_eq] at hmem
  obtain ⟨h₁, h₂, h₃, h₄, h₅, h₆, h₇, h₈⟩ := hmem
  simp only [given, h₁, h₂, h₃, h₄, h₅, h₆, h₇, h₈, if_true]

theorem Checked.given {c : Settings} (h : c.Checked) (names : List String) :
    (c.given names).Checked where
  itemClass := iteInduction (motive := fun s => Text.blank s = false)
    (fun _ => h.itemClass) fun _ => checked_default.itemClass
  idPrefix := iteInduction (motive := fun s => Text.blank s = false)
    (fun _ => h.idPrefix) fun _ => checked_default.idPrefix
  itemWidth := iteInduction (motive := fun x => isPositive x = true)
    (fun _ => h.itemWidth) fun _ => checked_default.itemWidth
  itemHeight := iteInduction (motive := fun x => isPositive x = true)
    (fun _ => h.itemHeight) fun _ => checked_default.itemHeight
  style role := by
    cases role with
    | source =>
      change styleProblem? .source (ite _ c.sourceStyle Style.source) = none
      exact iteInduction (motive := fun s => styleProblem? .source s = none)
        (fun _ => h.style .source) fun _ => checked_default.style .source
    | target =>
      change styleProblem? .target (ite _ c.targetStyle Style.target) = none
      exact iteInduction (motive := fun s => styleProblem? .target s = none)
        (fun _ => h.style .target) fun _ => checked_default.style .target
  logLevel := iteInduction (motive := fun s => s ∈ levels)
    (fun _ => h.logLevel) fun _ => checked_default.logLevel

theorem orDefault_ite {α : Type} {decode : Json → Option α} {j : Json} {a : α}
    (h : decode j = some a) (default : α) (P : Prop) [Decidable P] :
    orDefault decode default (if P then some j else none) = some (if P then a else default) := by
  split
  · exact h
  · rfl

theorem float?_ofFloat {x : Float} (h : x.isFinite = true) : (Json.ofFloat x).float? = some x := by
  rw [Json.ofFloat, if_pos h]
  rfl

theorem ofJson?_object {c : Settings} (hc : c.Checked)
    (hlimits : ∀ role, ∀ n ∈ (c.style role).limit, n < Json.wordBound)
    {room : Nat} (hroom : 2 < room) {members : List (Json.Str × Json)} {names : List String}
    (hsome : ∀ m ∈ members, m.1.isSome = true)
    (honce : ∀ n ∈ fieldNames, Json.occurrences members n ≤ 1)
    (hgiven : ∀ n ∈ fieldNames, (Json.object members).get? n =
      if n ∈ names then c.toJson.get? n else none) :
    ofJson? room (.object members) = some (c.given names) := by
  have hfields : (Json.object members).fields? fieldNames = some
      [if "item_class" ∈ names then some (.ofString c.itemClass) else none,
        if "item_id_prefix" ∈ names then some (.ofString c.idPrefix) else none,
        if "item_width" ∈ names then some (.ofFloat c.itemWidth) else none,
        if "item_height" ∈ names then some (.ofFloat c.itemHeight) else none,
        if "palette_kind_attr" ∈ names then some (.ofString c.kindAttribute) else none,
        if "source_endpoint" ∈ names then some c.sourceStyle.toJson else none,
        if "target_endpoint" ∈ names then some c.targetStyle.toJson else none,
        if "log_level" ∈ names then some (.ofString c.logLevel) else none] := by
    rw [Json.fields?_object hsome honce]
    exact congrArg some (List.map_congr_left hgiven)
  have hstyle : ∀ role, Style.ofJson? (room - 1) (c.style role).toJson = some (c.style role) :=
    fun role => Style.ofJson?_toJson
      (isFinite_of_shapeIsPositive (shapeIsPositive_of_styleProblem? (hc.style role)))
      (hlimits role) (by omega)
  have hsource : Style.ofJson? (room - 1) c.sourceStyle.toJson = some c.sourceStyle :=
    hstyle .source
  have htarget : Style.ofJson? (room - 1) c.targetStyle.toJson = some c.targetStyle :=
    hstyle .target
  have hwidth := float?_ofFloat (isFinite_of_isPositive hc.itemWidth)
  have hheight := float?_ofFloat (isFinite_of_isPositive hc.itemHeight)
  rw [fieldNames] at hfields
  simp only [ofJson?, hfields, orDefault_ite (Json.string?_ofString _), orDefault_ite hwidth,
    orDefault_ite hheight, orDefault_ite hsource, orDefault_ite htarget, Option.bind_eq_bind,
    Option.bind_some, Option.pure_def]
  rfl

theorem readsBack_ofFloat {x : Float} (h : x.isFinite = true)
    (hx : ReadsBack (.number (.real x))) : ReadsBack (.ofFloat x) := by
  rwa [Json.ofFloat, if_pos h]

theorem readsBack_shape {s : Shape} (h : ∀ x ∈ s.doubles, ReadsBack (.ofFloat x)) :
    ReadsBack s.toJson := by
  cases s with
  | dot r =>
    refine Json.readsBack_record ?_
    simp only [List.forall_mem_cons]
    exact ⟨Json.readsBack_ofString _, h r List.mem_cons_self, nofun⟩
  | rectangle w k =>
    refine Json.readsBack_record ?_
    simp only [List.forall_mem_cons]
    exact ⟨Json.readsBack_ofString _, h w List.mem_cons_self,
      h k (List.mem_cons_of_mem _ List.mem_cons_self), nofun⟩

theorem readsBack_style {s : Style} (h : ∀ x ∈ s.shape.doubles, ReadsBack (.ofFloat x))
    (hlimit : ∀ n ∈ s.limit, n < Json.wordBound) : ReadsBack s.toJson := by
  refine Json.readsBack_record ?_
  simp only [List.forall_mem_cons]
  refine ⟨Json.readsBack_ofString _, readsBack_shape h, Json.readsBack_ofString _, ?_, nofun⟩
  cases hl : s.limit with
  | none => exact Json.readsBack_null
  | some n => exact Json.readsBack_ofNat (hlimit n hl)

/-- The numbers are small enough for a word, and finite doubles are read back from their texts. -/
structure Storable (c : Settings) : Prop where
  limits : ∀ role, ∀ n ∈ (c.style role).limit, n < Json.wordBound
  doubles : ∀ x ∈ c.doubles, x.isFinite = true → ReadsBack (.number (.real x))

def fields (c : Settings) : List (String × Json) :=
  [("item_class", .ofString c.itemClass), ("item_id_prefix", .ofString c.idPrefix),
    ("item_width", .ofFloat c.itemWidth), ("item_height", .ofFloat c.itemHeight),
    ("palette_kind_attr", .ofString c.kindAttribute), ("source_endpoint", c.sourceStyle.toJson),
    ("target_endpoint", c.targetStyle.toJson), ("log_level", .ofString c.logLevel)]

theorem toJson_eq_record (c : Settings) : c.toJson = .record c.fields := rfl

theorem readsBack_field {c : Settings} (hc : c.Checked) (hs : c.Storable) {name : String} {j : Json}
    (h : c.toJson.get? name = some j) : ReadsBack j := by
  have hdoubles : ∀ x ∈ c.doubles, ReadsBack (.ofFloat x) := fun x hx =>
    readsBack_ofFloat (hc.isFinite x hx) (hs.doubles x hx (hc.isFinite x hx))
  simp only [Settings.doubles, List.forall_mem_cons, List.forall_mem_append] at hdoubles
  obtain ⟨hwidth, hheight, hsource, htarget⟩ := hdoubles
  rw [toJson_eq_record] at h
  have hmem : (name, j) ∈ c.fields := Json.mem_of_get?_record h
  simp only [fields, List.mem_cons, Prod.mk.injEq, List.not_mem_nil, or_false] at hmem
  rcases hmem with ⟨-, rfl⟩ | ⟨-, rfl⟩ | ⟨-, rfl⟩ | ⟨-, rfl⟩ | ⟨-, rfl⟩ | ⟨-, rfl⟩ | ⟨-, rfl⟩ |
    ⟨-, rfl⟩
  · exact Json.readsBack_ofString _
  · exact Json.readsBack_ofString _
  · exact hwidth
  · exact hheight
  · exact Json.readsBack_ofString _
  · exact readsBack_style hsource (hs.limits .source)
  · exact readsBack_style htarget (hs.limits .target)
  · exact Json.readsBack_ofString _

/-- A member of an object: a field of the settings, or a name of no field with any value. -/
inductive Entry (c : Settings) : String × String → Prop
  | field {name : String} {j : Json} : c.toJson.get? name = some j → Entry c (name, j.text)
  | unknown {name value : String} : name ∉ fieldNames → (Json.read? value).isSome = true →
      Entry c (name, value)

theorem Entry.read? {c : Settings} (hc : c.Checked) (hs : c.Storable) {m : String × String}
    (h : Entry c m) :
    ∃ j, Json.read? m.2 = some j ∧ (m.1 ∈ fieldNames → c.toJson.get? m.1 = some j) := by
  cases h with
  | field hj => exact ⟨_, readsBack_field hc hs hj, fun _ => hj⟩
  | unknown hname hread =>
    obtain ⟨j, hj⟩ := Option.isSome_iff_exists.mp hread
    exact ⟨j, hj, fun hn => absurd hn hname⟩

theorem exists_field (c : Settings) : ∀ n ∈ fieldNames, ∃ j, c.toJson.get? n = some j := by
  simp only [fieldNames, List.forall_mem_cons]
  exact ⟨⟨_, rfl⟩, ⟨_, rfl⟩, ⟨_, rfl⟩, ⟨_, rfl⟩, ⟨_, rfl⟩, ⟨_, rfl⟩, ⟨_, rfl⟩, ⟨_, rfl⟩, nofun⟩

theorem read_of_object {raw : String} {members : List (Json.Str × Json)} {s : Settings}
    (hraw : Json.read? raw = some (.object members))
    (hs : ofJson? Json.maxDepth (.object members) = some s) : Settings.read raw = s.validate := by
  rw [Settings.read, hraw, Option.bind_some, hs]

theorem validate_of_checked {s : Settings} (h : s.Checked) : s.validate = .ok s := by
  rw [validate, problem?_eq_none_iff.mpr h]

theorem read_objectText {c : Settings} (hc : c.Checked) (hs : c.Storable)
    {entries : List (String × String)} (hentries : ∀ m ∈ entries, Entry c m)
    (honce : ∀ n ∈ fieldNames, (entries.map Prod.fst).count n ≤ 1) :
    Settings.read (Json.objectText entries) = .ok (c.given (entries.map Prod.fst)) := by
  have hread : ∀ m ∈ entries, (Json.read? m.2).isSome = true := fun m hm => by
    obtain ⟨j, hj, -⟩ := (hentries m hm).read? hc hs
    exact Option.isSome_iff_exists.mpr ⟨j, hj⟩
  have hdecoded : ofJson? Json.maxDepth (.object (Json.membersRead entries)) =
      some (c.given (entries.map Prod.fst)) := by
    refine ofJson?_object hc hs.limits (by decide) ?_ ?_ fun n hn => ?_
    · intro m hm
      obtain ⟨e, -, rfl⟩ := List.mem_map.mp hm
      rfl
    · intro n hn
      rw [Json.occurrences_membersRead]
      exact honce n hn
    · obtain ⟨j, hj⟩ := exists_field c n hn
      rw [hj]
      refine Json.get?_membersRead fun m hm hname => ?_
      obtain ⟨j', hj', hfield⟩ := (hentries m hm).read? hc hs
      rw [hname] at hfield
      rw [hj', ← hfield hn, hj]
  rw [read_of_object (Json.read?_objectText hread) hdecoded]
  exact validate_of_checked (hc.given _)

theorem ofJson?_of_twice {room : Nat} {members : List (Json.Str × Json)} {n : String}
    (hn : n ∈ fieldNames) (h : 2 ≤ Json.occurrences members n) :
    ofJson? room (.object members) = none := by
  have hfields : (Json.object members).fields? fieldNames = none := Json.fields?_of_twice hn h
  rw [fieldNames] at hfields
  simp only [ofJson?, hfields, Option.bind_eq_bind, Option.bind_none]

theorem problem?_of_validate {s t : Settings} (h : s.validate = .ok t) : t.problem? = none := by
  rw [validate] at h
  split at h
  · cases h
  · next hp =>
    obtain rfl := Except.ok.inj h
    exact hp

theorem problem?_of_read {raw : String} {s : Settings} (h : Settings.read raw = .ok s) :
    s.problem? = none := by
  rw [Settings.read] at h
  split at h
  · cases h
  · exact problem?_of_validate h

def written (c : Settings) : List (String × String) := c.fields.map fun m => (m.1, m.2.text)

theorem entry_of_written {c : Settings} : ∀ m ∈ c.written, Entry c m := by
  intro m hm
  obtain ⟨⟨name, j⟩, hj, rfl⟩ := List.mem_map.mp hm
  refine .field ?_
  simp only [fields, List.mem_cons, Prod.mk.injEq, List.not_mem_nil, or_false] at hj
  rcases hj with ⟨rfl, rfl⟩ | ⟨rfl, rfl⟩ | ⟨rfl, rfl⟩ | ⟨rfl, rfl⟩ | ⟨rfl, rfl⟩ | ⟨rfl, rfl⟩ |
    ⟨rfl, rfl⟩ | ⟨rfl, rfl⟩ <;> rfl

theorem written_names (c : Settings) : c.written.map Prod.fst = fieldNames := rfl

/-- Settings are read back from an object of some of their fields in any order, among any other
members, with defaults for the fields that are missing; a field given twice is refused, and what is
read is valid. -/
theorem given_fields_are_read :
    (∀ c : Settings, c.problem? = none → c.Storable →
      (∀ entries, (∀ m ∈ entries, Entry c m) →
        (∀ n ∈ fieldNames, (entries.map Prod.fst).count n ≤ 1) →
        Settings.read (Json.objectText entries) = .ok (c.given (entries.map Prod.fst)) ∧
          ((∀ n ∈ fieldNames, n ∈ entries.map Prod.fst) →
            Settings.read (Json.objectText entries) = .ok c)) ∧
      Settings.read c.toJson.text = .ok c) ∧
    (∀ raw members, Json.read? raw = some (.object members) →
      ∀ n ∈ fieldNames, 2 ≤ Json.occurrences members n →
        Settings.read raw = .error .unreadableSettings) ∧
    ∀ raw s, Settings.read raw = .ok s → s.problem? = none := by
  refine ⟨fun c hp hs => ?_, fun raw members hraw n hn htwice => ?_, fun raw s h => ?_⟩
  · have hc := problem?_eq_none_iff.mp hp
    have hobject : ∀ entries, (∀ m ∈ entries, Entry c m) →
        (∀ n ∈ fieldNames, (entries.map Prod.fst).count n ≤ 1) →
        Settings.read (Json.objectText entries) = .ok (c.given (entries.map Prod.fst)) :=
      fun entries => read_objectText hc hs
    refine ⟨fun entries hentries honce => ?_, ?_⟩
    · have hread := hobject entries hentries honce
      exact ⟨hread, fun hall => by rw [hread, given_of_all hall]⟩
    · have htext : c.toJson.text = Json.objectText c.written := Json.text_record c.fields
      have hread := hobject c.written entry_of_written (by rw [written_names]; decide)
      rw [htext, hread, given_of_all fun n hn => by rwa [written_names]]
  · rw [Settings.read, hraw, Option.bind_some, ofJson?_of_twice hn htwice]
  · exact problem?_of_read h

def sample : Settings :=
  { itemClass := "a \"b\"\n", itemHeight := 0.5,
    sourceStyle := ⟨"red", .rectangle 3 0.25, .top, some 2⟩ }

def sampleEntries : List (String × String) :=
  [("extra", " [1e400, \"\\ud800\"] "), ("source_endpoint", sample.sourceStyle.toJson.text),
    ("item_class", (Json.ofString sample.itemClass).text), ("extra", "null")]

theorem given_fields_are_read_of_sample :
    sample.problem? = none ∧ sample.Storable ∧ (∀ m ∈ sampleEntries, Entry sample m) ∧
      Json.objectText sampleEntries =
        "\x7b\"extra\": [1e400, \"\\ud800\"] ,\"source_endpoint\":\x7b\"color\":\"red\",\"shape\":"
          ++ "\x7b\"type\":\"rectangle\",\"width\":3.0,\"height\":0.25\x7d,\"anchor\":\"Top\","
          ++ "\"max_connections\":2\x7d,\"item_class\":\"a \\\"b\\\"\\n\",\"extra\":null\x7d" ∧
      Settings.read (Json.objectText sampleEntries) =
        .ok { itemClass := sample.itemClass, sourceStyle := sample.sourceStyle } ∧
      Settings.read sample.toJson.text = .ok sample ∧
      Settings.read (Json.objectText [("item_width", "1"), ("x", "2"), ("item_width", "1")]) =
        .error .unreadableSettings := by
  have hvalid : sample.problem? = none := problem?_eq_none_iff.mpr
    ⟨by decide, by decide, by decide +kernel, by decide +kernel, fun role => by cases role <;> rfl,
      by decide⟩
  have hdoubles : sample.doubles = [120, 0.5, 3, 0.25, 14, 14] := rfl
  have hstorable : sample.Storable := by
    refine ⟨fun role n hn => ?_, ?_⟩
    · cases role with
      | source =>
        obtain rfl := Option.some.inj hn
        decide
      | target => cases hn
    · rw [hdoubles]
      simp only [List.forall_mem_cons]
      exact ⟨fun _ => rfl, fun _ => rfl, fun _ => rfl, fun _ => rfl, fun _ => rfl, fun _ => rfl,
        nofun⟩
  have hentries : ∀ m ∈ sampleEntries, Entry sample m := by
    simp only [sampleEntries, List.forall_mem_cons]
    exact ⟨.unknown (by decide) (by decide +kernel), .field rfl, .field rfl,
      .unknown (by decide) (by decide +kernel), nofun⟩
  obtain ⟨hgiven, htwice, -⟩ := given_fields_are_read
  obtain ⟨hobject, hall⟩ := hgiven sample hvalid hstorable
  have hread := (hobject sampleEntries hentries (by decide)).1
  have hpart : sample.given (sampleEntries.map Prod.fst) =
      { itemClass := sample.itemClass, sourceStyle := sample.sourceStyle } := rfl
  rw [hpart] at hread
  refine ⟨hvalid, hstorable, hentries, by decide +kernel, hread, hall,
    htwice _ _ (Json.read?_objectText ?_) "item_width" (by decide) ?_⟩
  · decide +kernel
  · rw [Json.occurrences_membersRead]
    decide

end Settings

end DiagramEditor

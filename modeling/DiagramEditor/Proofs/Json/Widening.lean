import DiagramEditor.Proofs.Json.Records
import Mathlib.Data.List.Forall2
import Mathlib.Data.List.Nodup

/-! Objects with their members in another order and among members that nobody asks for, at any
depth: the fields of a record are found as before. A variant is looked through with all that was
added to it, so it is read as long as its levels fit into the room that is left. -/
namespace DiagramEditor.Json

mutual

def depth : Json → Nat
  | .array items => depthItems items + 1
  | .object members => depthMembers members + 1
  | _ => 0

def depthItems : List Json → Nat
  | [] => 0
  | j :: rest => max (depth j) (depthItems rest)

def depthMembers : List (Str × Json) → Nat
  | [] => 0
  | (_, j) :: rest => max (depth j) (depthMembers rest)

end

section Depth
variable {n : Nat}

theorem depthItems_le_iff {items : List Json} :
    depthItems items ≤ n ↔ ∀ j ∈ items, depth j ≤ n := by
  induction items with
  | nil => simp [depthItems]
  | cons j rest ih => rw [depthItems, Nat.max_le, ih, List.forall_mem_cons]

theorem depthMembers_le_iff {members : List (Str × Json)} :
    depthMembers members ≤ n ↔ ∀ m ∈ members, depth m.2 ≤ n := by
  induction members with
  | nil => simp [depthMembers]
  | cons m rest ih => rw [depthMembers, Nat.max_le, ih, List.forall_mem_cons]

theorem depth_record_le {ms : List (String × Json)} (h : ∀ m ∈ ms, depth m.2 ≤ n) :
    depth (.record ms) ≤ n + 1 := by
  rw [record, depth]
  refine Nat.succ_le_succ (depthMembers_le_iff.mpr fun m hm => ?_)
  obtain ⟨original, horiginal, rfl⟩ := List.mem_map.mp hm
  exact h original horiginal

theorem depth_ofList_le {α : Type} {encode : α → Json} {as : List α}
    (h : ∀ a ∈ as, depth (encode a) ≤ n) : depth (.ofList encode as) ≤ n + 1 := by
  rw [ofList, depth]
  refine Nat.succ_le_succ (depthItems_le_iff.mpr fun j hj => ?_)
  obtain ⟨a, ha, rfl⟩ := List.mem_map.mp hj
  exact h a ha

theorem depth_lt_of_mem {items : List Json} {j : Json} (h : j ∈ items) :
    depth j < depth (.array items) := by
  rw [depth]
  exact Nat.lt_succ_of_le (depthItems_le_iff.mp (Nat.le_refl _) j h)

theorem depth_lt_of_get? {j k : Json} {name : String} (h : j.get? name = some k) :
    depth k < depth j := by
  cases j with
  | object members =>
    obtain ⟨m, hm, rfl⟩ := Option.map_eq_some_iff.mp h
    have hmem := List.mem_of_find?_eq_some hm
    rw [depth]
    exact Nat.lt_succ_of_le (depthMembers_le_iff.mp (Nat.le_refl _) m hmem)
  | null | bool | number | string | array => cases h

theorem depth_ofFloat (x : Float) : (ofFloat x).depth = 0 := by
  rw [ofFloat]
  split <;> rfl

theorem depth_ofString (s : String) : (ofString s).depth = 0 := rfl

theorem depth_ofOption_ofNat (limit : Option Nat) :
    (ofOption ofNat limit).depth = 0 := by
  cases limit <;> rfl

end Depth

/-- Values of strings that are valid, integers of 64 bits and such doubles. -/
inductive Whole (P : Float → Prop) : Json → Prop
  | null : Whole P .null
  | bool (b : Bool) : Whole P (.bool b)
  | int {n : Int} (hlow : -(signedBound : Int) ≤ n) (hhigh : n < wordBound) : Whole P (.ofInt n)
  | real {x : Float} (h : P x) : Whole P (.number (.real x))
  | string (s : String) : Whole P (.ofString s)
  | array {items : List Json} (h : ∀ j ∈ items, Whole P j) : Whole P (.array items)
  | object {members : List (Str × Json)} (hnames : ∀ m ∈ members, m.1.isSome = true)
      (h : ∀ m ∈ members, Whole P m.2) : Whole P (.object members)

theorem whole_ofFloat {P : Float → Prop} {x : Float} (h : P x) : Whole P (.ofFloat x) := by
  rw [ofFloat]
  split
  · exact .real h
  · exact .null

theorem whole_record {P : Float → Prop} {ms : List (String × Json)}
    (h : ∀ m ∈ ms, Whole P m.2) : Whole P (.record ms) := by
  refine .object (fun m hm => ?_) fun m hm => ?_
  · obtain ⟨_, _, rfl⟩ := List.mem_map.mp hm
    rfl
  · obtain ⟨n, hn, rfl⟩ := List.mem_map.mp hm
    exact h n hn

theorem whole_ofList {P : Float → Prop} {α : Type} {encode : α → Json} {as : List α}
    (h : ∀ a ∈ as, Whole P (encode a)) : Whole P (.ofList encode as) := by
  refine .array fun j hj => ?_
  obtain ⟨a, ha, rfl⟩ := List.mem_map.mp hj
  exact h a ha

section Usable
variable {items : List Json} {members : List (Str × Json)} {room : Nat}

theorem usableItems_iff
    (h : ∀ j ∈ items, ∀ {room : Nat}, usable room j = true ↔ depth j ≤ room) :
    usableItems room items = true ↔ depthItems items ≤ room := by
  induction items with
  | nil => simp [usableItems, depthItems]
  | cons j rest ih =>
    obtain ⟨hj, hrest⟩ := List.forall_mem_cons.mp h
    rw [usableItems, depthItems, Bool.and_eq_true, hj, ih hrest, Nat.max_le]

theorem usableMembers_iff (hnames : ∀ m ∈ members, m.1.isSome = true)
    (h : ∀ m ∈ members, ∀ {room : Nat}, usable room m.2 = true ↔ depth m.2 ≤ room) :
    usableMembers room members = true ↔ depthMembers members ≤ room := by
  induction members with
  | nil => simp [usableMembers, depthMembers]
  | cons m rest ih =>
    obtain ⟨hname, hnames⟩ := List.forall_mem_cons.mp hnames
    obtain ⟨hm, hrest⟩ := List.forall_mem_cons.mp h
    rw [usableMembers, depthMembers, Bool.and_eq_true, Bool.and_eq_true, hname, hm,
      ih hnames hrest, Nat.max_le, eq_self_iff_true, true_and]

theorem usable_iff {P : Float → Prop} {j : Json} (h : Whole P j) :
    usable room j = true ↔ depth j ≤ room := by
  induction h generalizing room with
  | null | bool | int | real | string => simp [usable, depth, ofInt, ofString]
  | array _ ih =>
    rw [usable, depth, Bool.and_eq_true, usableItems_iff fun j hj => ih j hj, bne_iff_ne]
    omega
  | object hnames _ ih =>
    rw [usable, depth, Bool.and_eq_true, usableMembers_iff hnames fun m hm => ih m hm, bne_iff_ne]
    omega

end Usable

/-- Members in any order, with other members whose names are not taken. -/
def Among (P : Float → Prop) (ms members : List (Str × Json)) : Prop :=
  ∃ others : List (Str × Json), members.Perm (ms ++ others) ∧
    ∀ m ∈ others, m.1.isSome = true ∧ m.1 ∉ ms.map Prod.fst ∧ Whole P m.2

section Among
variable {P : Float → Prop} {ms members : List (Str × Json)}

theorem among_self (P : Float → Prop) (ms : List (Str × Json)) : Among P ms ms :=
  ⟨[], by rw [List.append_nil], nofun⟩

theorem Among.whole (h : Among P ms members) (hnames : ∀ m ∈ ms, m.1.isSome = true)
    (hms : ∀ m ∈ ms, Whole P m.2) : Whole P (.object members) := by
  obtain ⟨others, hperm, hothers⟩ := h
  have hmember : ∀ m ∈ members, m ∈ ms ∨ m ∈ others := fun m hm =>
    List.mem_append.mp (hperm.mem_iff.mp hm)
  refine .object (fun m hm => ?_) fun m hm => ?_
  · exact (hmember m hm).elim (hnames m) fun ho => (hothers m ho).1
  · exact (hmember m hm).elim (hms m) fun ho => (hothers m ho).2.2

theorem Among.isSome (h : Among P ms members) (hnames : ∀ m ∈ ms, m.1.isSome = true) :
    ∀ m ∈ members, m.1.isSome = true := by
  obtain ⟨others, hperm, hothers⟩ := h
  intro m hm
  exact (List.mem_append.mp (hperm.mem_iff.mp hm)).elim (hnames m) fun ho => (hothers m ho).1

theorem Among.occurrences (h : Among P ms members) {name : String}
    (hname : some name ∈ ms.map Prod.fst) :
    occurrences members name = (ms.map Prod.fst).count (some name) := by
  obtain ⟨others, hperm, hothers⟩ := h
  have hnone : others.countP (fun m => m.1 == some name) = 0 := by
    rw [List.countP_eq_zero]
    intro m hm heq
    rw [beq_iff_eq] at heq
    exact (hothers m hm).2.1 (heq ▸ hname)
  rw [Json.occurrences, hperm.countP_eq, List.countP_append, hnone, Nat.add_zero, List.count,
    List.countP_map]
  rfl

theorem Among.mem (h : Among P ms members) {m : Str × Json} (hm : m ∈ ms) : m ∈ members := by
  obtain ⟨others, hperm, -⟩ := h
  exact hperm.mem_iff.mpr (List.mem_append_left _ hm)

theorem Among.get? (h : Among P ms members) (hnodup : (ms.map Prod.fst).Nodup) {name : String}
    {j : Json} (hj : (some name, j) ∈ ms) : (Json.object members).get? name = some j := by
  have hmem := h.mem hj
  obtain ⟨others, hperm, hothers⟩ := h
  -- none that were added has the name, so the first with it is the one that had it before
  have hunique : ∀ m ∈ members, m.1 = some name → m = (some name, j) := by
    intro m hm hname
    rcases List.mem_append.mp (hperm.mem_iff.mp hm) with hm | hm
    · exact List.inj_on_of_nodup_map hnodup hm hj hname
    · exact absurd (hname ▸ List.mem_map_of_mem hj) (hothers m hm).2.1
  obtain ⟨m, hfound⟩ : ∃ m, members.find? (fun m => m.1 == some name) = some m := by
    rw [← Option.isSome_iff_exists, List.find?_isSome]
    exact ⟨_, hmem, beq_self_eq_true _⟩
  have hname := List.find?_some hfound
  rw [beq_iff_eq] at hname
  rw [Json.get?, hfound, hunique m (List.mem_of_find?_eq_some hfound) hname]
  rfl

theorem Among.filter {name : String} {j : Json}
    (h : Among P ((some name, j) :: ms) members) (hfresh : some name ∉ ms.map Prod.fst) :
    Among P ms (members.filter fun m => m.1 != some name) := by
  obtain ⟨others, hperm, hothers⟩ := h
  have hkept : ∀ m ∈ ms ++ others, (m.1 != some name) = true := by
    intro m hm
    rw [bne_iff_ne]
    rintro hname
    rcases List.mem_append.mp hm with hm | hm
    · exact hfresh (hname ▸ List.mem_map_of_mem hm)
    · exact (hothers m hm).2.1 (hname ▸ List.mem_cons_self)
  refine ⟨others, ?_, fun m hm => ?_⟩
  · have hfilter := hperm.filter fun m => m.1 != some name
    rwa [List.cons_append, List.filter_cons_of_neg (by simp), List.filter_eq_self.mpr hkept]
      at hfilter
  · obtain ⟨hname, htaken, hwhole⟩ := hothers m hm
    exact ⟨hname, fun hmem => htaken (List.mem_cons_of_mem _ hmem), hwhole⟩

end Among

/-- The same value, apart from the order of members and members that were added. -/
inductive Widens (P : Float → Prop) : Json → Json → Prop
  | null : Widens P .null .null
  | bool (b : Bool) : Widens P (.bool b) (.bool b)
  | number (n : Number) : Widens P (.number n) (.number n)
  | string (s : Str) : Widens P (.string s) (.string s)
  | array {js ks : List Json} (h : List.Forall₂ (Widens P) js ks) : Widens P (.array js) (.array ks)
  | object {ms ns members : List (Str × Json)} (hnames : ms.map Prod.fst = ns.map Prod.fst)
      (h : List.Forall₂ (Widens P) (ms.map Prod.snd) (ns.map Prod.snd))
      (hamong : Among P ns members) : Widens P (.object ms) (.object members)

section Widens
variable {P : Float → Prop}

theorem exists_mem_of_forall₂ {R : Json → Json → Prop} {js ks : List Json}
    (h : List.Forall₂ R js ks) {k : Json} (hk : k ∈ ks) : ∃ j ∈ js, R j k := by
  induction h with
  | nil => exact absurd hk List.not_mem_nil
  | cons hjk _ ih =>
    rcases List.mem_cons.mp hk with rfl | hk
    · exact ⟨_, List.mem_cons_self, hjk⟩
    · obtain ⟨j, hj, hr⟩ := ih hk
      exact ⟨j, List.mem_cons_of_mem _ hj, hr⟩

theorem widens_self {j : Json} (h : Whole P j) : Widens P j j := by
  induction h with
  | null => exact .null
  | bool b => exact .bool b
  | int => exact .number _
  | real => exact .number _
  | string s => exact .string _
  | array _ ih => exact .array (List.forall₂_same.mpr ih)
  | object _ _ ih =>
    refine .object rfl (List.forall₂_same.mpr fun j hj => ?_) (among_self P _)
    obtain ⟨m, hm, rfl⟩ := List.mem_map.mp hj
    exact ih m hm

theorem Widens.eq_of_depth {j k : Json} (h : Widens P j k) (hj : depth j = 0) : k = j := by
  cases h with
  | null | bool | number | string => rfl
  | array => exact absurd hj (Nat.succ_ne_zero _)
  | object => exact absurd hj (Nat.succ_ne_zero _)

theorem eq_of_forall₂_widens {js ks : List Json} (h : List.Forall₂ (Widens P) js ks)
    (hjs : ∀ j ∈ js, depth j = 0) : ks = js := by
  induction h with
  | nil => rfl
  | cons hjk _ ih =>
    obtain ⟨hj, hjs⟩ := List.forall_mem_cons.mp hjs
    rw [hjk.eq_of_depth hj, ih hjs]

theorem Widens.whole {j k : Json} (h : Widens P j k) (hj : Whole P j) : Whole P k := by
  induction hj generalizing k with
  | null =>
    cases h
    exact .null
  | bool b =>
    cases h
    exact .bool b
  | int hlow hhigh =>
    cases h
    exact .int hlow hhigh
  | real hx =>
    cases h
    exact .real hx
  | string s =>
    cases h
    exact .string s
  | array _ ih =>
    cases h with
    | array h =>
      refine .array fun k hk => ?_
      obtain ⟨j, hj, hr⟩ := exists_mem_of_forall₂ h hk
      exact ih j hj hr
  | object hnames _ ih =>
    cases h with
    | object heq h hamong =>
      refine hamong.whole (fun n hn => ?_) fun n hn => ?_
      · obtain ⟨m, hm, hname⟩ := List.mem_map.mp (heq ▸ List.mem_map_of_mem (f := Prod.fst) hn)
        exact hname ▸ hnames m hm
      · obtain ⟨j, hj, hr⟩ := exists_mem_of_forall₂ h (List.mem_map_of_mem hn)
        obtain ⟨m, hm, rfl⟩ := List.mem_map.mp hj
        exact ih m hm hr

end Widens

section Record
variable {P : Float → Prop} {ms : List (String × Json)} {k : Json}

theorem widens_array {js : List Json} (h : Widens P (.array js) k) :
    ∃ ks, k = .array ks ∧ List.Forall₂ (Widens P) js ks := by
  cases h with
  | array h => exact ⟨_, rfl, h⟩

theorem widens_record (h : Widens P (.record ms) k) : ∃ ns members, k = .object members ∧
    ns.map Prod.fst = (ms.map Prod.fst).map some ∧
    List.Forall₂ (Widens P) (ms.map Prod.snd) (ns.map Prod.snd) ∧ Among P ns members := by
  rw [record] at h
  cases h with
  | @object _ ns members hnames h hamong =>
    refine ⟨ns, members, rfl, ?_, ?_, hamong⟩
    · rw [← hnames, List.map_map, List.map_map]
      rfl
    · rwa [List.map_map] at h

theorem widens_of_perm (others : List (String × Json)) {ks : List Json}
    {members : List (String × Json)} (h : List.Forall₂ (Widens P) (ms.map Prod.snd) ks)
    (hperm : members.Perm ((ms.map Prod.fst).zip ks ++ others))
    (hothers : ∀ m ∈ others, m.1 ∉ ms.map Prod.fst ∧ Whole P m.2) :
    Widens P (.record ms) (.record members) := by
  have hlength : (ms.map Prod.fst).length = ks.length := by
    rw [List.length_map, ← h.length_eq, List.length_map]
  have hzip : ((ms.map Prod.fst).zip ks).map Prod.fst = ms.map Prod.fst :=
    List.map_fst_zip hlength.le
  -- the widened members where the old ones stood, before they are turned around
  let ns : List (Str × Json) := ((ms.map Prod.fst).zip ks).map fun m => (some m.1, m.2)
  have hnames : ns.map Prod.fst = (ms.map Prod.fst).map some := by
    rw [← hzip, List.map_map, List.map_map]
    rfl
  have hvalues : ns.map Prod.snd = ks := by
    rw [List.map_map]
    exact List.map_snd_zip hlength.ge
  refine @Widens.object P _ ns _ ?_ ?_ ⟨others.map fun m => (some m.1, m.2), ?_, ?_⟩
  · rw [hnames, List.map_map, List.map_map]
    rfl
  · rw [hvalues, List.map_map]
    exact h
  · rw [← List.map_append]
    exact hperm.map _
  · intro m hm
    obtain ⟨original, horiginal, rfl⟩ := List.mem_map.mp hm
    obtain ⟨hfresh, hwhole⟩ := hothers original horiginal
    refine ⟨rfl, ?_, hwhole⟩
    rw [hnames, List.mem_map]
    rintro ⟨name, hname, hsame⟩
    exact hfresh (Option.some.inj hsame ▸ hname)

theorem isSome_of_names {ns : List (Str × Json)} {names : List String}
    (h : ns.map Prod.fst = names.map some) : ∀ m ∈ ns, m.1.isSome = true := by
  intro m hm
  obtain ⟨name, -, hname⟩ := List.mem_map.mp (h ▸ List.mem_map_of_mem hm)
  rw [← hname]
  rfl

theorem fields?_of_widens (hnodup : (ms.map Prod.fst).Nodup) (h : Widens P (.record ms) k) :
    ∃ ks, k.fields? (ms.map Prod.fst) = some (ks.map some) ∧
      (ms.map Prod.fst).map k.get? = ks.map some ∧
      List.Forall₂ (Widens P) (ms.map Prod.snd) ks := by
  obtain ⟨ns, members, rfl, hnames, hvalues, hamong⟩ := widens_record h
  have hdistinct : (ns.map Prod.fst).Nodup := by
    rw [hnames]
    exact hnodup.map fun _ _ => Option.some.inj
  have hget : (ms.map Prod.fst).map (object members).get? = (ns.map Prod.snd).map some := by
    have hfound : ∀ n ∈ ns, n.1.bind (object members).get? = some n.2 := by
      rintro ⟨name, j⟩ hn
      obtain ⟨name, rfl⟩ := Option.isSome_iff_exists.mp (isSome_of_names hnames _ hn)
      exact hamong.get? hdistinct hn
    calc (ms.map Prod.fst).map (object members).get?
        = (ns.map Prod.fst).map fun name => name.bind (object members).get? := by
          simp only [hnames, List.map_map, Function.comp_def, Option.bind_some]
      _ = (ns.map Prod.snd).map some := by
          simp only [List.map_map, Function.comp_def]
          exact List.map_congr_left hfound
  have honce : ∀ name ∈ ms.map Prod.fst, occurrences members name ≤ 1 := by
    intro name hname
    have hmem : some name ∈ ns.map Prod.fst := hnames ▸ List.mem_map_of_mem hname
    rw [hamong.occurrences hmem]
    exact List.nodup_iff_count_le_one.mp hdistinct _
  refine ⟨ns.map Prod.snd, ?_, hget, hvalues⟩
  rw [fields?_object (hamong.isSome (isSome_of_names hnames)) honce, hget]

theorem fields?_of_plain (hnodup : (ms.map Prod.fst).Nodup) (hplain : ∀ m ∈ ms, depth m.2 = 0)
    (h : Widens P (.record ms) k) :
    k.fields? (ms.map Prod.fst) = some (ms.map fun m => some m.2) := by
  obtain ⟨ks, hfields, -, hvalues⟩ := fields?_of_widens hnodup h
  have hsame : ks = ms.map Prod.snd := eq_of_forall₂_widens hvalues fun j hj => by
    obtain ⟨m, hm, rfl⟩ := List.mem_map.mp hj
    exact hplain m hm
  rw [hfields, hsame, List.map_map]
  rfl

theorem tagged?_of_widens {tag : String} {room : Nat} (hnodup : ("type" :: ms.map Prod.fst).Nodup)
    (h : Widens P (.record (("type", .ofString tag) :: ms)) k) :
    ∃ body, Widens P (.record ms) body ∧
      k.tagged? room = if usable room k then some (tag, body) else none := by
  obtain ⟨ns, members, rfl, hnames, hvalues, hamong⟩ := widens_record h
  have hne : ns ≠ [] := by
    rintro rfl
    cases hnames
  obtain ⟨⟨name, t⟩, ns, rfl⟩ := List.exists_cons_of_ne_nil hne
  obtain ⟨rfl, hrest⟩ : name = some "type" ∧ ns.map Prod.fst = (ms.map Prod.fst).map some :=
    List.cons.inj hnames
  obtain ⟨htag, hbehind⟩ := List.forall₂_cons.mp hvalues
  obtain rfl : t = .ofString tag := by
    cases htag
    rfl
  have hdistinct : (((some "type", Json.ofString tag) :: ns).map Prod.fst).Nodup := by
    rw [hnames]
    exact hnodup.map fun _ _ => Option.some.inj
  have hfresh : some "type" ∉ ns.map Prod.fst := (List.nodup_cons.mp hdistinct).1
  have hmem : some "type" ∈ ((some "type", Json.ofString tag) :: ns).map Prod.fst :=
    List.mem_cons_self
  have honce : occurrences members "type" = 1 := by
    rw [hamong.occurrences hmem]
    exact List.count_eq_one_of_mem hdistinct hmem
  have hget : (object members).get? "type" = some (.ofString tag) :=
    hamong.get? hdistinct List.mem_cons_self
  refine ⟨.object (members.filter fun m => m.1 != some "type"), ?_, ?_⟩
  · refine .object ?_ ?_ (hamong.filter hfresh)
    · rw [hrest, List.map_map, List.map_map]
      rfl
    · rw [List.map_map]
      exact hbehind
  · rw [tagged?]
    simp only [honce, hget, if_true, Option.bind_some]
    rfl

theorem tagged?_of_plain {tag : String} {room : Nat} (hnodup : ("type" :: ms.map Prod.fst).Nodup)
    (hplain : ∀ m ∈ ms, depth m.2 = 0)
    (h : Widens P (.record (("type", .ofString tag) :: ms)) k) :
    ∃ body, body.fields? (ms.map Prod.fst) = some (ms.map fun m => some m.2) ∧
      k.tagged? room = if usable room k then some (tag, body) else none := by
  obtain ⟨body, hbody, htagged⟩ := tagged?_of_widens hnodup h
  exact ⟨body, fields?_of_plain (List.nodup_cons.mp hnodup).2 hplain hbody, htagged⟩

end Record

end DiagramEditor.Json

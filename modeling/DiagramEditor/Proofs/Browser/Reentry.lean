import DiagramEditor.Proofs.Browser.Tracking

/-! Re-entry: callbacks find the board free, functions of the drawing library find it borrowed and
are turned down, and nobody borrows what is borrowed. -/
namespace DiagramEditor.Browser

open Standing (Allows)

namespace Standing

/-- The rules of re-entry, for a moment that comes while things stand so. -/
structure Guards (s : Standing) (m : Moment) : Prop where
  -- whoever calls is a script, at the place where it calls
  calls : ∀ op, m = .begins (.method op) → Calls op s.frames ∧
    (InScript s.frames ∧ s.held = [] ∨ InLibrary s.frames ∧ s.held = [.board])
  ends : ∀ f up a, s.frames = f :: up → m = .ends a → f.next? = none
  answers : ∀ op up made a, s.frames = .method op :: up → m = .answers made a →
    made = op ∧ (a = .error .busy ↔ op.asks = true ∧ InLibrary up)
  -- a call that is turned down does nothing else
  idles : ∀ op up, s.frames = .method op :: up → op.asks = true → InLibrary up →
    m = .refuses ∨ m = .answers op (.error .busy)
  borrows : ∀ p, m = .borrows p → p ∉ s.held

section Guards
variable {s : Standing} {m : Moment}

theorem Allows.calls {op : Op} (h : s.Allows (.begins (.method op))) :
    Calls op s.frames ∧
      (InScript s.frames ∧ s.held = [] ∨ InLibrary s.frames ∧ s.held = [.board]) := by
  cases h with
  | call hf hn hh => exact ⟨hn, Or.inl ⟨hf, hh⟩⟩
  | callInside hf hn hh => exact ⟨hn, Or.inr ⟨hf, hh⟩⟩

theorem Allows.ends {f : Frame} {up : List Frame} {a : Activity} (h : s.Allows (.ends a))
    (hs : s.frames = f :: up) : f.next? = none := by
  have htop : ∀ {g up'}, s.frames = g :: up' → g = f := fun hg =>
    (List.cons.inj (hg.symm.trans hs)).1
  cases h with
  | deliveryEnds hf => exact htop hf ▸ rfl
  | @callbackEnds n v p up' hf hd =>
    obtain rfl := htop hf
    cases p with
    | call => cases hd
    | _ => rfl
  | @libraryEnds name vs p up' hf hd =>
    obtain rfl := htop hf
    cases p with
    | call => cases hd
    | _ => rfl

theorem Allows.answers {op made : Op} {up : List Frame} {a : Answer}
    (h : s.Allows (.answers made a)) (hs : s.frames = .method op :: up) :
    made = op ∧ (a = .error .busy ↔ op.asks = true ∧ InLibrary up) := by
  cases h with
  | answer hf ha =>
    obtain ⟨hm, rfl⟩ := List.cons.inj (hs.symm.trans hf)
    obtain rfl := Frame.method.inj hm
    exact ⟨rfl, ha⟩

theorem Allows.idles {op : Op} {up : List Frame} (h : s.Allows m)
    (hs : s.frames = .method op :: up) (hask : op.asks = true) (hup : InLibrary up) :
    m = .refuses ∨ m = .answers op (.error .busy) := by
  cases h with
  | refuse => exact Or.inl rfl
  | answer hf ha =>
    obtain ⟨rfl, ha⟩ := (Allows.answer hf ha).answers hs
    exact Or.inr (congrArg _ (ha.mpr ⟨hask, hup⟩))
  | register hf | remove hf | define hf =>
    obtain ⟨hm, -⟩ := List.cons.inj (hs.symm.trans hf)
    obtain rfl := Frame.method.inj hm
    cases hask
  -- all else needs another frame on top, or none of the library's below
  | _ => grind [AtListeners, InScript, InLibrary]

theorem Allows.borrows {p : Part} (h : s.Allows (.borrows p)) : p ∉ s.held := by
  cases h with
  | takeBoard _ _ hh => simp [hh]
  | takeQueue _ _ hh => rcases hh with hh | hh <;> simp [hh]
  | takeListeners _ hh => rcases hh with hh | hh <;> simp [hh]

theorem Allows.guards (h : s.Allows m) : s.Guards m where
  calls := by
    rintro op rfl
    exact h.calls
  ends := by
    rintro f up a hs rfl
    exact h.ends hs
  answers := by
    rintro op up made a hs rfl
    exact h.answers hs
  idles := fun op up hs hask hup => h.idles hs hask hup
  borrows := by
    rintro p rfl
    exact h.borrows

end Guards

end Standing

namespace Site

theorem run_denied (levels : Nat) {s : Site} {op : Op} (hb : s.busy = true)
    (hask : op.asks = true) :
    run (levels + 1) (.op op) s =
      (.error .busy, s.tell [.begins (.method op), .refuses, .answers op (.error .busy)]) := by
  have hbegun : (tell s [.begins (.method op)]).busy = true := hb
  simp only [run, perform, act_denied (run levels) hbegun hask]
  simp [tell, Desk.onOutside, Tab.tell]

/-- Scripts and callbacks find all parts of a page free and are not turned down. A call straight
from the drawing library finds the board borrowed: it is turned down if it asks for the board, and
leaves all as it was but for the account of it. Nobody borrows what is borrowed. -/
theorem reentry_refused_in_library {settings : String} {dom : Dom} {console : Log.Console}
    {levels : Nat} {script : Program} {ms : List Moment}
    (h : accountOf settings (Tab.new dom console) levels script = .ok ms) :
    (∀ past m rest, ms = past ++ m :: rest → (standing past).Guards m) ∧
    ∀ (s : Site) op, s.busy = true → op.asks = true →
      run (levels + 1) (.op op) s =
        (.error .busy, s.tell [.begins (.method op), .refuses, .answers op (.error .busy)]) := by
  refine ⟨fun past m rest hms => ?_, fun s op hb hask => run_denied levels hb hask⟩
  obtain ⟨hkept, -⟩ := accountOf_kept h
  exact (hms ▸ hkept).next.guards

-- texts that spell no ids are turned down for that, also within the library
example : (Op.connect "e0" "e0").asks = false := rfl

def asksWithin : List Op :=
  [.define "setContainer" (.function fun _ => .call .items fun
      | .ok v => .returns v
      | .error r => .throws (.string r.kind)),
    .initCanvas "#canvas"]

theorem reentry_refused_in_setContainer :
    ∃ ms, accountOf "" (Tab.new sheet .empty) 9 (.calls asksWithin) = .ok ms ∧
      ∃ past rest, ms = past ++ .begins (.method .items) :: .refuses :: rest ∧
        InLibrary (standing past).frames ∧ (standing past).Guards (.begins (.method .items)) := by
  have h : accountOf "" (Tab.new sheet .empty) 9 (.calls asksWithin) = .ok _ := rfl
  refine ⟨_, h, [_, _, _, _, _, _, _], _, rfl, ⟨"setContainer", _, _, rfl⟩, ?_⟩
  exact (reentry_refused_in_library h).1 [_, _, _, _, _, _, _] _ _ rfl

end Site

end DiagramEditor.Browser
